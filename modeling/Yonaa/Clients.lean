import Yonaa.Server

/-! The vector of clients: its entries without the empty pointers, what setting one
entry changes, and what a lookup says about it. -/
namespace Yonaa

/-- The entries that are not empty pointers. -/
abbrev entries (cs : List (Option ClientInfo)) : List ClientInfo := cs.reduceOption

/-- One field of every entry, empty pointers kept. -/
def keys {α : Type} (key : ClientInfo → α) (cs : List (Option ClientInfo)) : List (Option α) :=
  cs.map (Option.map key)

theorem entries_concat (cs : List (Option ClientInfo)) (c : ClientInfo) :
    entries (cs++[some c]) = entries cs++[c] := by
  simp [List.reduceOption_append]

theorem entries_take (cs : List (Option ClientInfo)) (n : Nat) :
    (entries (cs.take n)).Sublist (entries cs) := (List.take_sublist n cs).filterMap id

theorem drop_entry {cs : List (Option ClientInfo)} {i : Nat} {c : ClientInfo} {l : List ClientInfo}
    (h : cs.drop i = (c::l).map some) :
    cs[i]? = some (some c) ∧ cs.drop (i+1) = l.map some := by
  have hhead := congrArg List.head? h
  have htail := congrArg List.tail h
  rw [List.head?_drop] at hhead
  rw [List.tail_drop] at htail
  exact ⟨hhead,htail⟩

section Set
variable {α : Type} {key : ClientInfo → α} {cs : List (Option ClientInfo)} {i : Nat}
  {c c' : ClientInfo}

theorem mem_entries_iff {cs : List (Option ClientInfo)} {c : ClientInfo} :
    c ∈ entries cs ↔ ∃ i : Nat, cs[i]? = some (some c) :=
  List.reduceOption_mem_iff.trans List.mem_iff_getElem?

theorem mem_of_getElem? (h : cs[i]? = some (some c)) : c ∈ entries cs :=
  mem_entries_iff.mpr ⟨i,h⟩

theorem set_self (h : cs[i]? = some (some c)) : cs.set i (some c) = cs := by
  obtain ⟨hlt,hget⟩ := List.getElem?_eq_some_iff.mp h
  rw [← hget,List.set_getElem_self]

theorem entries_set (h : cs[i]? = some (some c)) (c' : ClientInfo) :
    ∃ l r, entries cs = l++c::r ∧ entries (cs.set i (some c')) = l++c'::r := by
  induction cs generalizing i with
  | nil => simp at h
  | cons e cs ih =>
    cases i with
    | zero =>
      simp only [List.getElem?_cons_zero,Option.some.injEq] at h
      exact ⟨[],entries cs,by simp [h],by simp⟩
    | succ i =>
      obtain ⟨l,r,hl,hr⟩ := ih (i := i) (by simpa using h)
      cases e with
      | none => exact ⟨l,r,by simpa using hl,by simpa using hr⟩
      | some d => exact ⟨d::l,r,by simpa using hl,by simpa using hr⟩

theorem mem_entries_set (h : cs[i]? = some (some c)) {d : ClientInfo}
    (hd : d ∈ entries (cs.set i (some c'))) : d = c' ∨ d ∈ entries cs := by
  obtain ⟨l,r,hl,hr⟩ := entries_set h c'
  rw [hr] at hd
  rw [hl]
  simp only [List.mem_append,List.mem_cons] at hd ⊢
  tauto

theorem pairwise_set {R : ClientInfo → ClientInfo → Prop} (hsym : ∀ a b, R a b → R b a)
    (h : cs[i]? = some (some c)) (hR : ∀ d, R c d → R c' d) (hcs : (entries cs).Pairwise R) :
    (entries (cs.set i (some c'))).Pairwise R := by
  obtain ⟨l,r,hl,hr⟩ := entries_set h c'
  rw [hl,List.pairwise_append,List.pairwise_cons] at hcs
  rw [hr,List.pairwise_append,List.pairwise_cons]
  obtain ⟨hpl,⟨hcr,hpr⟩,hx⟩ := hcs
  refine ⟨hpl,⟨fun d hd => hR d (hcr d hd),hpr⟩,?_⟩
  intro a ha b hb
  cases List.mem_cons.mp hb with
  | inl hb =>
    rw [hb]
    exact hsym _ _ (hR a (hsym _ _ (hx a ha c (by simp))))
  | inr hb => exact hx a ha b (by simp [hb])

theorem pairwise_at {R : ClientInfo → ClientInfo → Prop} (hsym : ∀ a b, R a b → R b a)
    {j : Nat} {d : ClientInfo} (hi : cs[i]? = some (some c)) (hj : cs[j]? = some (some d))
    (hij : i ≠ j) (hcs : (entries cs).Pairwise R) : R c d := by
  induction cs generalizing i j with
  | nil => simp at hi
  | cons e cs ih =>
    cases i with
    | zero =>
      cases j with
      | zero => exact absurd rfl hij
      | succ j =>
        simp only [List.getElem?_cons_zero,Option.some.injEq] at hi
        simp only [hi,List.reduceOption_cons_of_some,List.pairwise_cons] at hcs
        exact hcs.1 d (mem_of_getElem? (i := j) (by simpa using hj))
    | succ i =>
      have hcs' : (entries cs).Pairwise R := by
        cases e with
        | none => simpa using hcs
        | some b => exact (List.pairwise_cons.mp (by simpa using hcs)).2
      cases j with
      | zero =>
        simp only [List.getElem?_cons_zero,Option.some.injEq] at hj
        simp only [hj,List.reduceOption_cons_of_some,List.pairwise_cons] at hcs
        exact hsym _ _ (hcs.1 c (mem_of_getElem? (i := i) (by simpa using hi)))
      | succ j => exact ih (by simpa using hi) (by simpa using hj) (by omega) hcs'

theorem keys_set (h : cs[i]? = some (some c)) (hk : key c' = key c) :
    keys key (cs.set i (some c')) = keys key cs := by
  apply List.ext_getElem?
  intro j
  simp only [keys,List.getElem?_map,List.getElem?_set]
  by_cases hj : i = j
  · subst hj
    have hi : i < cs.length := (List.getElem?_eq_some_iff.mp h).1
    rw [if_pos rfl,if_pos hi,h]
    simp [hk]
  · rw [if_neg hj]

theorem entries_map (key : ClientInfo → α) (cs : List (Option ClientInfo)) :
    (entries cs).map key = (keys key cs).reduceOption := List.reduceOption_map.symm

theorem map_entries_set (h : cs[i]? = some (some c)) (hk : key c' = key c) :
    (entries (cs.set i (some c'))).map key = (entries cs).map key := by
  rw [entries_map,keys_set h hk,← entries_map]

theorem none_mem_keys : none ∈ keys key cs ↔ none ∈ cs := by
  simp [keys]

end Set

theorem map_some_reduceOption {α : Type} {l : List (Option α)} (h : none ∉ l) :
    l.reduceOption.map some = l := by
  induction l with
  | nil => rfl
  | cons a l ih =>
    cases a with
    | none => simp at h
    | some a => simpa using ih (by simpa using h)

theorem reduceOption_map_some {α : Type} (l : List α) : (l.map some).reduceOption = l := by
  induction l with
  | nil => rfl
  | cons a l ih => simp [ih]

namespace Server

/-! The lookups. -/

/-- A successful lookup ends at the first entry, or passes over it and succeeds in the rest. -/
theorem find_cons_found {p : ClientInfo → Bool} {e : Option ClientInfo}
    {cs : List (Option ClientInfo)} {i : Nat} {c : ClientInfo}
    (h : find p (e::cs) = .found i c) :
    (i = 0 ∧ e = some c ∧ p c = true) ∨
      ∃ d j, e = some d ∧ p d = false ∧ i = j+1 ∧ find p cs = .found j c := by
  cases e with
  | none => simp [find] at h
  | some d =>
    by_cases hd : p d = true
    · simp only [find,hd,if_true,Lookup.found.injEq] at h
      obtain ⟨rfl,rfl⟩ := h
      exact Or.inl ⟨rfl,rfl,hd⟩
    · simp only [find,hd,if_false,Bool.false_eq_true] at h
      cases hr : find p cs with
      | missing => simp [hr] at h
      | crash => simp [hr] at h
      | found j c' =>
        simp only [hr,Lookup.found.injEq] at h
        obtain ⟨rfl,rfl⟩ := h
        exact Or.inr ⟨d,j,rfl,Bool.eq_false_of_not_eq_true hd,rfl,rfl⟩

theorem find_found {p : ClientInfo → Bool} {cs : List (Option ClientInfo)} {i : Nat}
    {c : ClientInfo} (h : find p cs = .found i c) : cs[i]? = some (some c) ∧ p c = true := by
  induction cs generalizing i with
  | nil => cases h
  | cons e cs ih =>
    obtain ⟨rfl,rfl,hc⟩ | ⟨d,j,rfl,-,rfl,hr⟩ := find_cons_found h
    · exact ⟨rfl,hc⟩
    · exact ih hr

theorem find_not_crash {p : ClientInfo → Bool} {cs : List (Option ClientInfo)}
    (h : none ∉ cs) : find p cs ≠ .crash := by
  intro hf
  induction cs with
  | nil => cases hf
  | cons e cs ih =>
    cases e with
    | none => exact h List.mem_cons_self
    | some c =>
      by_cases hc : p c = true
      · simp [find,hc] at hf
      · simp only [find,hc,if_false,Bool.false_eq_true] at hf
        cases hr : find p cs with
        | missing => simp [hr] at hf
        | found i d => simp [hr] at hf
        | crash => exact ih (fun hnull => h (List.mem_cons_of_mem _ hnull)) hr

/-- A lookup finds an entry, the first one with the property, if all before it are there. -/
theorem find_of_mem {p : ClientInfo → Bool} {cs : List (Option ClientInfo)} {i : Nat}
    {c : ClientInfo} (hc : cs[i]? = some (some c)) (hp : p c = true)
    (hne : ∀ j < i, cs[j]? ≠ some none) : ∃ j d, find p cs = .found j d ∧ j ≤ i := by
  induction cs generalizing i with
  | nil => simp at hc
  | cons e cs ih =>
    cases e with
    | none =>
      cases i with
      | zero => simp at hc
      | succ i => exact absurd rfl (hne 0 (by omega))
    | some d =>
      by_cases hd : p d = true
      · exact ⟨0,d,by simp [find,hd],by omega⟩
      · cases i with
        | zero =>
          simp only [List.getElem?_cons_zero,Option.some.injEq] at hc
          exact absurd (hc ▸ hp) hd
        | succ i =>
          obtain ⟨j,d',hf,hj⟩ := ih (i := i) (by simpa using hc)
            (fun j hj => by simpa using hne (j+1) (by omega))
          exact ⟨j+1,d',by simp [find,hd,hf],by omega⟩

theorem find_first {p : ClientInfo → Bool} {cs : List (Option ClientInfo)} {i : Nat}
    {c : ClientInfo} (h : find p cs = .found i c) :
    ∀ x ∈ cs.take i, ∃ d, x = some d ∧ p d = false := by
  induction cs generalizing i with
  | nil => cases h
  | cons e cs ih =>
    obtain ⟨rfl,-,-⟩ | ⟨d,j,rfl,hd,rfl,hr⟩ := find_cons_found h
    · simp
    · intro x hx
      cases List.mem_cons.mp hx with
      | inl hx => exact ⟨d,hx,hd⟩
      | inr hx => exact ih hr x hx

theorem find_passed {p : ClientInfo → Bool} {cs : List (Option ClientInfo)} {i : Nat}
    {c : ClientInfo} (h : find p cs = .found i c) : ∀ j < i, cs[j]? ≠ some none := by
  intro j hj hn
  have hmem : none ∈ cs.take i := by
    rw [← List.getElem?_take_of_lt hj] at hn
    exact List.mem_of_getElem? hn
  obtain ⟨d,hd,-⟩ := find_first h none hmem
  cases hd

end Server
end Yonaa
