/-
# Writes in another order

Texts that are put at different places do not get in each other's way: what one of them makes on its
path has the kind that the others need there, whichever comes first. A store that accepts such writes
accepts them in every order, and what comes out is the same store. Empty texts are left out, since a
branch accepts one without keeping it.

Key definition: `Store.Apart`.
Key theorems: `Store.Below.setAll`, `Store.mem_leaves_setAll`, `Store.setAll_reordered`.
-/
import BeanContainer.Proofs.Store.Shape
import Mathlib.Data.List.Permutation

namespace BeanContainer
namespace Store

variable {store whole next : Store} {key text : String} {path : List Label}
  {pairs writes : List (String × String)}

/-! ### Room for a write -/

namespace Below

/-- Where a text stands in `whole`, one can be put. -/
theorem set {old : String} (h : store.Below whole) (hk : Key.path? key = some path)
    (hne : path ≠ []) (hl : (path, old) ∈ whole.leaves) (text : String) :
    ∃ next, store.set key text = .ok next ∧ next.Below whole := by
  obtain ⟨root, hw⟩ := Node.write_ok_iff.mpr (h.admits hl text)
  have hx : store.set key text = .ok ⟨some root⟩ := set_ok_iff.mpr ⟨path, root, hk, hne, hw, rfl⟩
  refine ⟨_, hx, h.wellFormed.set hx, h.wellFormed_whole, fun leaf hm => ?_⟩
  rcases set_leaves h.wellFormed hk hx with ⟨-, hsame⟩ | ⟨-, hleaves⟩
  · rw [hsame] at hm
    exact h.paths leaf hm
  · rw [hleaves] at hm
    split at hm
    · next hp => exact ⟨old, hp ▸ hl⟩
    · exact h.paths leaf hm

/-- Texts can be put one after the other at places where texts stand in `whole`. -/
theorem setAll (h : store.Below whole) (hp : ∀ pair ∈ pairs, ∃ path,
      Key.path? pair.1 = some path ∧ path ≠ [] ∧ ∃ old, (path, old) ∈ whole.leaves) :
    ∃ next, store.setAll pairs = .ok next := by
  induction pairs generalizing store with
  | nil => exact ⟨store, rfl⟩
  | cons pair rest ih =>
    rw [List.forall_mem_cons] at hp
    obtain ⟨⟨path, hk, hne, old, hl⟩, hrest⟩ := hp
    obtain ⟨middle, hx, hm⟩ := h.set hk hne hl pair.2
    obtain ⟨next, hx'⟩ := ih hm hrest
    exact ⟨next, (setAll_cons_of_ok hx).trans hx'⟩

end Below

/-! ### What writes leave behind -/

/-- A text that is not empty is kept where it is put. -/
theorem mem_leaves_set (h : store.WellFormed) (hk : Key.path? key = some path) (ht : text ≠ "")
    (hx : store.set key text = .ok next) (place : List Label) (t : String) :
    (place, t) ∈ next.leaves ↔ if place = path then t = text else (place, t) ∈ store.leaves := by
  rcases set_leaves h hk hx with ⟨⟨node, hn, hkind⟩, -⟩ | ⟨-, hleaves⟩
  · obtain ⟨path', root, hk', -, hw, -⟩ := set_ok_iff.mp hx
    rw [hk] at hk'
    cases hk'
    rcases (Node.write_ok_iff.mp ⟨root, hw⟩).here node hn with hv | he
    · exact absurd hv hkind
    · exact absurd he ht
  · exact hleaves place t

/-- After writes the last of the texts that were put at a place stands there, or what stood there
before. -/
theorem mem_leaves_setAll (h : store.WellFormed) (ht : ∀ pair ∈ pairs, pair.2 ≠ "")
    (hx : store.setAll pairs = .ok next) (place : List Label) (t : String) :
    (place, t) ∈ next.leaves ↔ (textsAt place pairs).getLast? = some t ∨
      textsAt place pairs = [] ∧ (place, t) ∈ store.leaves := by
  induction pairs generalizing store with
  | nil =>
    cases hx
    simp [textsAt]
  | cons pair rest ih =>
    rw [List.forall_mem_cons] at ht
    rcases hs : store.set pair.1 pair.2 with fault | middle
    · rw [setAll_cons, hs] at hx
      cases hx
    rw [setAll_cons_of_ok hs] at hx
    obtain ⟨path, -, hk, -⟩ := set_ok_iff.mp hs
    rw [ih (h.set hs) ht.2 hx, mem_leaves_set h hk ht.1 hs, textsAt_cons, hk]
    by_cases hp : place = path
    · subst hp
      rw [if_pos rfl, if_pos rfl, List.getLast?_cons]
      rcases textsAt place rest with _ | ⟨first, more⟩
      · simp [eq_comm]
      · simp [List.getLast?_cons, eq_comm]
    · rw [if_neg hp, if_neg fun he => hp (Option.some.inj he).symm]

/-! ### Writes at different places -/

/-- Writes of texts that are not empty, at places that are all different. -/
structure Apart (writes : List (String × String)) : Prop where
  places : writes.Pairwise fun a b => Key.path? a.1 ≠ Key.path? b.1
  texts : ∀ write ∈ writes, write.2 ≠ ""

/-- At most one of the writes goes to a place. -/
theorem Apart.length_textsAt (h : Apart writes) (place : List Label) :
    (textsAt place writes).length ≤ 1 := by
  obtain ⟨places, -⟩ := h
  induction places with
  | nil => exact Nat.zero_le 1
  | @cons write rest hfirst _ ih =>
    rw [textsAt_cons]
    split
    · next hp =>
      rw [textsAt_eq_nil_iff.mpr fun other ho he => hfirst other ho (hp.trans he.symm)]
      exact Nat.le_refl 1
    · exact ih

theorem Apart.textsAt_eq (h : Apart writes) {writes' : List (String × String)}
    (hp : writes.Perm writes') (place : List Label) :
    textsAt place writes' = textsAt place writes := by
  have hperm : (textsAt place writes).Perm (textsAt place writes') := hp.filterMap _
  have hlen := h.length_textsAt place
  match htexts : textsAt place writes with
  | [] =>
    rw [htexts] at hperm
    exact List.nil_perm.mp hperm
  | [only] =>
    rw [htexts] at hperm
    exact List.singleton_perm.mp hperm |>.symm
  | _ :: _ :: _ =>
    rw [htexts] at hlen
    simp at hlen

/-- **Writes at different places commute.** A store that accepts them in one order accepts them in
every order, and becomes the same store. -/
theorem setAll_reordered (calls : List (String × String)) {writes writes' : List (String × String)}
    {final : Store} (ha : Apart writes) (hx : (ofCalls calls).setAll writes = .ok final)
    (hp : writes.Perm writes') : (ofCalls calls).setAll writes' = .ok final := by
  have h := wellFormed_ofCalls calls
  have hf := h.setAll hx
  have hleaves := mem_leaves_setAll h ha.texts hx
  have hbelow : (ofCalls calls).Below final := by
    refine ⟨h, hf, fun ⟨place, t⟩ hl => ?_⟩
    rcases hlast : (textsAt place writes).getLast? with _ | last
    · exact ⟨t, (hleaves place t).mpr (.inr ⟨List.getLast?_eq_none_iff.mp hlast, hl⟩)⟩
    · exact ⟨last, (hleaves place last).mpr (.inl hlast)⟩
  have hroom : ∀ write ∈ writes', ∃ path, Key.path? write.1 = some path ∧ path ≠ [] ∧
      ∃ old, (path, old) ∈ final.leaves := by
    intro write hw
    have hw := hp.mem_iff.mpr hw
    obtain ⟨path, hk, hne⟩ := path?_of_setAll hx write hw
    rcases hlast : (textsAt path writes).getLast? with _ | last
    · exact absurd hk (textsAt_eq_nil_iff.mp (List.getLast?_eq_none_iff.mp hlast) write hw)
    · exact ⟨path, hk, hne, last, (hleaves path last).mpr (.inl hlast)⟩
  obtain ⟨final', hx'⟩ := hbelow.setAll hroom
  have ht' : ∀ write ∈ writes', write.2 ≠ "" := fun write hw => ha.texts write (hp.mem_iff.mpr hw)
  rw [hx', (h.setAll hx').ext hf fun ⟨place, t⟩ => ?_]
  rw [mem_leaves_setAll h ht' hx', hleaves, ha.textsAt_eq hp]

/-- Ports that come with a host, and a second host in place of the first. -/
theorem setAll_reordered_ports :
    let writes := [("server.ports[2]", "80"), ("server.host", "b"), ("server.ports[00]", "443")]
    let final : Store := ⟨some (.map [(.name "server", .map [(.name "host", .value "b"),
      (.name "ports", .array [(.position 0, .value "443"), (.position 2, .value "80")])])])⟩
    Apart writes ∧ (ofCalls [("server.host", "a")]).setAll writes = .ok final ∧
      (ofCalls [("server.host", "a")]).setAll writes.reverse = .ok final := by
  intro writes final
  have hhigh : Key.path? "server.ports[2]" = some [.name "server", .name "ports", .position 2] := by
    cbv
  have hhost : Key.path? "server.host" = some [.name "server", .name "host"] := by cbv
  have hlow : Key.path? "server.ports[00]" = some [.name "server", .name "ports", .position 0] := by
    cbv
  have ha : Apart writes := ⟨by simp [writes, hhigh, hhost, hlow], by simp [writes]⟩
  have hx : (ofCalls [("server.host", "a")]).setAll writes = .ok final := by cbv
  exact ⟨ha, hx, setAll_reordered _ ha hx (List.reverse_perm writes).symm⟩

-- A branch accepts the empty text; where the empty text comes first, no branch is made.
example : (ofPairs [("a.b", "1"), ("a", "")]).isOk = true ∧
    (ofPairs [("a", ""), ("a.b", "1")]).isOk = false := by cbv

end Store
end BeanContainer
