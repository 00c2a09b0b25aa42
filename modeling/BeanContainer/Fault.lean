/-
# Faults

Everything that can go wrong, as causes. The wording is in one place, `Fault.message`.

Key definitions:
- `NodeKind`, what a node of the property store is.
- `BindingFault`, `LookupFault`, `UsageFault`, the causes that a binding, a search for beans
  and a wrong use of the container report.
- `Fault`, all of them, with the frame `wiring` that says which beans were being wired.
- `Fault.kind`, the coarse classification, and `Fault.root`, the fault inside the frames.
-/
import BeanContainer.Text.Quoted
import BeanContainer.Text.Shown

namespace BeanContainer

/-- What a node of the property store is. -/
inductive NodeKind where
  | value
  | map
  | array
  deriving DecidableEq, Repr, Inhabited

/-- The word for the kind of a node. -/
def NodeKind.word : NodeKind → String
  | value => "value"
  | map => "map"
  | array => "array"

/-- Why a property can't be bound. -/
inductive BindingFault where
  /-- The text `raw` does not read as the wanted type. -/
  | unreadable (raw : String) (reason : String)
  /-- The text `raw` does not read as a duration. -/
  | unreadableDuration (raw : String) (reason : String)
  /-- A placeholder names a map or an array. -/
  | notText (kind : NodeKind)
  /-- The property at `key` is of a kind that the type can't be bound from. -/
  | wrongKind (key : String) (kind : NodeKind)
  /-- A validator stands on something that is no scalar. -/
  | notScalar
  /-- The default of a map is not blank. -/
  | mapDefault (text : String)
  deriving DecidableEq, Repr, Inhabited

/-- The wording of a binding fault. -/
def BindingFault.message : BindingFault → String
  | unreadable raw reason => "can't parse " ++ Text.quoted raw ++ ": " ++ reason
  | unreadableDuration raw reason => "can't parse duration " ++ Text.quoted raw ++ ": " ++ reason
  | notText kind => "a " ++ kind.word ++ " can't be used as a string"
  | wrongKind key kind => "property '" ++ key ++ "' is a " ++ kind.word
  | notScalar => "only scalar values can be validated"
  | mapDefault text => "map default must be empty, got " ++ Text.quoted text

/-- Why beans can't be found or decided. -/
inductive LookupFault where
  /-- No bean is injectable as `type` for the tag. -/
  | noBean (tag type : String)
  /-- One bean was wanted and several are injectable. -/
  | severalBeans (tag type : String) (ids : List String)
  /-- A selector of a tag picks no candidate. -/
  | noMatch (selector type : String)
  /-- A selector of a tag picks more than one candidate. -/
  | severalMatches (selector type : String) (ids : List String)
  /-- A bean depends on a selector that matches nothing. -/
  | missingDependency (selector : String)
  /-- The bean has no instance yet. -/
  | notWired (bean : String)
  /-- The bean's condition did not hold. -/
  | dropped (bean : String)
  /-- The bean's condition is not decided. -/
  | notResolved (bean : String)
  /-- These beans wait on each other: each with the beans it waits on. -/
  | stuck (waiting : List (String × List String))
  /-- A user's condition function failed. -/
  | conditionFunction (reason : String)
  /-- A condition asked for a decision rests on beans that are not decided. -/
  | undecided (ids : List String)
  deriving DecidableEq, Repr, Inhabited

/-- The wording of a lookup fault. -/
def LookupFault.message : LookupFault → String
  | noBean tag type => "can't find bean, tag=\"" ++ tag ++ "\" type=" ++ type
  | severalBeans tag type ids =>
    "found " ++ ids.length.repr ++ " beans, tag=\"" ++ tag ++ "\" type=" ++ type ++ ": "
      ++ Text.bracketed ids
  | noMatch selector type => "can't find bean, selector=" ++ selector ++ " type=" ++ type
  | severalMatches selector type ids =>
    "found " ++ ids.length.repr ++ " beans, selector=" ++ selector ++ " type=" ++ type ++ ": "
      ++ Text.bracketed ids
  | missingDependency selector => "can't find bean '" ++ selector ++ "' it depends on"
  | notWired bean => "bean '" ++ bean ++ "' is not wired yet"
  | dropped bean => "bean '" ++ bean ++ "' is dropped by its condition"
  | notResolved bean => "bean '" ++ bean ++ "' is not resolved"
  | stuck waiting =>
    "beans can't be resolved: " ++ "; ".intercalate (waiting.map fun (bean, ids) =>
      bean ++ " (waiting on: " ++ Text.commaSeparated ids ++ ")")
  | conditionFunction reason => "condition function failed: " ++ reason
  | undecided ids => "condition depends on unresolved beans: " ++ Text.commaSeparated ids

/-- How the container is used wrongly. -/
inductive UsageFault where
  /-- A variadic parameter stands before the last one. -/
  | variadicNotLast (callable type : String)
  /-- An optional argument has no variadic parameter to go to. -/
  | optionWithoutVariadic (callable : String)
  /-- An argument is placed outside the fixed parameters. -/
  | indexOutOfRange (callable : String) (index : Nat)
  /-- Two arguments are placed at one parameter. -/
  | indexTaken (callable : String) (index : Nat)
  /-- More positional arguments than parameters. -/
  | tooManyArguments (callable : String) (fixed : Nat)
  /-- Placed and positional arguments together. -/
  | mixedArguments (callable : String)
  /-- A nested call gives another type than its place wants. -/
  | wrongResult (callable output wanted : String)
  /-- A fixed value is of another type than its parameter. -/
  | wrongValue (type : String)
  /-- The type has no zero value. -/
  | noZero (type : String)
  /-- The type can't be bound from a property. -/
  | notBindable (type expression : String)
  /-- The type can't be filled with beans. -/
  | notAutowirable (type tag : String)
  /-- A tag has nothing between two commas. -/
  | emptySelector (tag : String)
  /-- A tag has `*` more than once. -/
  | repeatedStar (tag : String)
  /-- The instance was already used up. -/
  | noInstance (bean : String)
  /-- The bean already has an instance. -/
  | wiredTwice (bean : String)
  /-- Two surviving beans share an id. -/
  | duplicateId (bean : String)
  /-- The container is not refreshed yet. -/
  | notRefreshed
  /-- The container is closed. -/
  | closed
  /-- The refresh has not begun, so there are no properties to read. -/
  | propertiesNotLoaded
  /-- A refusal worded by user code. -/
  | refused (text : String)
  deriving DecidableEq, Repr, Inhabited

/-- The wording of a usage fault. -/
def UsageFault.message : UsageFault → String
  | variadicNotLast callable type =>
    callable ++ ": variadic parameter " ++ type ++ " must be the last one"
  | optionWithoutVariadic callable => callable ++ ": option args need a variadic parameter"
  | indexOutOfRange callable index => callable ++ ": arg index " ++ index.repr ++ " out of range"
  | indexTaken callable index => callable ++ ": arg index " ++ index.repr ++ " is already set"
  | tooManyArguments callable fixed => callable ++ ": too many args, want " ++ fixed.repr
  | mixedArguments callable => callable ++ ": can't mix indexed and positional args"
  | wrongResult callable output wanted => callable ++ " returns " ++ output ++ ", wanted " ++ wanted
  | wrongValue type => "arg value is not a " ++ type
  | noZero type => type ++ " has no zero value"
  | notBindable type expression =>
    type ++ " can't be bound from property " ++ Text.quoted expression
  | notAutowirable type tag => type ++ " can't be autowired (tag \"" ++ tag ++ "\")"
  | emptySelector tag => "empty selector in autowire tag " ++ Text.quoted tag
  | repeatedStar tag => "autowire tag " ++ Text.quoted tag ++ " repeats '*'"
  | noInstance bean => "bean '" ++ bean ++ "' has no instance"
  | wiredTwice bean => "bean '" ++ bean ++ "' is wired twice"
  | duplicateId bean => "found duplicate bean id '" ++ bean ++ "'"
  | notRefreshed => "container is not refreshed yet"
  | closed => "container is closed"
  | propertiesNotLoaded => "properties are not loaded yet"
  | refused text => text

/-- The report of a panic. -/
def panicReport (reason : String) : String := "panic: " ++ reason

/-- The steps of a bean's life that user code takes part in. -/
inductive Stage where
  | construct
  | wire
  | init
  | destroy
  | call
  deriving DecidableEq, Repr, Inhabited

/-- The word for a stage. -/
def Stage.word : Stage → String
  | construct => "constructor"
  | wire => "wire"
  | init => "init"
  | destroy => "destroy"
  | call => "call"

/-- The coarse classification of faults. -/
inductive FaultKind where
  | parse
  | typeConflict
  | unresolved
  | cycle
  | validation
  | lifecycle
  | usage
  | cancelled
  deriving DecidableEq, Repr, Inhabited

/-- The name of a classification. -/
def FaultKind.word : FaultKind → String
  | parse => "Parse"
  | typeConflict => "TypeConflict"
  | unresolved => "Unresolved"
  | cycle => "Cycle"
  | validation => "Validation"
  | lifecycle => "Lifecycle"
  | usage => "Usage"
  | cancelled => "Cancelled"

/-- Everything that can go wrong in the container. -/
inductive Fault where
  /-- The text is no key. -/
  | invalidKey (key : String)
  /-- The text has a placeholder that is not closed or has no key. -/
  | invalidTemplate (text : String)
  /-- The predicate does not parse or does not evaluate to a truth value. -/
  | invalidPredicate (source reason : String)
  /-- A write at `key` meets the node at `path`, which is of another kind. -/
  | kindConflict (path : String) (kind : NodeKind) (key : String)
  /-- There is no property at `key`. -/
  | missingProperty (key : String)
  /-- Properties refer to each other in a circle; the keys in the order of the references. -/
  | circularReference (keys : List String)
  /-- A property can't be bound to `target`. -/
  | binding (target : String) (reason : BindingFault)
  /-- A bound value fails its validator. -/
  | rejected (predicate value : String)
  /-- Beans can't be found or decided. -/
  | lookup (reason : LookupFault)
  /-- The condition of a bean fails. -/
  | conditionFailed (bean : String) (cause : Fault)
  /-- Beans need each other in a circle; the ids in the order of need. -/
  | cycle (ids : List String)
  /-- User code fails in a stage of a bean's life. -/
  | lifecycle (bean : String) (stage : Stage) (reason : String)
  /-- The container is used wrongly. -/
  | usage (reason : UsageFault)
  /-- The registration of a bean was wrong. -/
  | invalidBean (bean : String) (cause : Fault)
  /-- Shutdown was requested. -/
  | cancelled
  /-- A computation broke off. The stage of a bean's life that it is part of takes this for a
  failure of its own; where there is none, as in the work of a bean, nothing takes it up. -/
  | panic (reason : String)
  /-- The fault arose while the beans of `path` were being wired, each for the one before it. -/
  | wiring (path : List String) (cause : Fault)
  deriving DecidableEq, Repr, Inhabited

namespace Fault

/-- What stands between the bean ids of a wiring path. -/
def pathSeparator : String := " ↳ "

/-- The wording of a fault. -/
def message : Fault → String
  | invalidKey key => "invalid key '" ++ key ++ "'"
  | invalidTemplate text => "resolve string \"" ++ text ++ "\" error: invalid syntax"
  | invalidPredicate source reason => "invalid expression \"" ++ source ++ "\": " ++ reason
  | kindConflict path kind key =>
    "property '" ++ path ++ "' is a " ++ kind.word ++ " but '" ++ key ++ "' wants other type"
  | missingProperty key => "property \"" ++ key ++ "\" not exist"
  | circularReference keys => "circular property reference: " ++ " -> ".intercalate keys
  | binding target reason => "bind " ++ target ++ " error: " ++ reason.message
  | rejected predicate value =>
    "validate failed on \"" ++ predicate ++ "\" for value " ++ value
  | lookup reason => reason.message
  | conditionFailed bean cause => "condition of bean '" ++ bean ++ "' failed: " ++ cause.message
  | cycle ids => "found circular autowire: " ++ pathSeparator.intercalate ids
  | lifecycle bean stage reason =>
    stage.word ++ " of bean '" ++ bean ++ "' failed: " ++ reason
  | usage reason => reason.message
  | invalidBean bean cause => "bean '" ++ bean ++ "': " ++ cause.message
  | cancelled => "operation cancelled"
  | panic reason => panicReport reason
  | wiring path cause => pathSeparator.intercalate path ++ ": " ++ cause.message

/-- The fault inside the wiring frames. -/
def root : Fault → Fault
  | wiring _ cause => cause.root
  | fault => fault

/-- The classification of a fault; a wiring frame has that of its cause. -/
def kind : Fault → FaultKind
  | invalidKey _ | invalidTemplate _ | invalidPredicate .. => .parse
  | kindConflict .. => .typeConflict
  | missingProperty _ | circularReference _ | binding .. | lookup _ | conditionFailed .. =>
    .unresolved
  | cycle _ => .cycle
  | rejected .. => .validation
  | lifecycle .. | panic _ => .lifecycle
  | usage _ | invalidBean .. => .usage
  | cancelled => .cancelled
  | wiring _ cause => cause.kind

end Fault
end BeanContainer
