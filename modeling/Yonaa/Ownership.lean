import Mathlib

/-! Owners and the resources they hold: what obtaining, moving and releasing a resource do
to the exclusive ownership, and when a resource is lost. -/
namespace Ownership
variable {κ ρ : Type} [DecidableEq κ]

/-- Which resource each owner holds, and which resources are open. -/
structure Ledger (κ ρ : Type) where
  held : κ → Option ρ
  live : Set ρ

/-- A resource has one owner at most, and only open resources are held. -/
structure Exclusive (l : Ledger κ ρ) : Prop where
  unique : ∀ i j r, l.held i = some r → l.held j = some r → i = j
  live : ∀ i r, l.held i = some r → r ∈ l.live

/-- What was open at the start stays open, and nobody holds it. -/
structure Foreign (started : Set ρ) (l : Ledger κ ρ) : Prop where
  live : started ⊆ l.live
  held : ∀ i r, l.held i = some r → r ∉ started

/-- Somebody holds every open resource that was not open at the start. -/
def Accounted (started : Set ρ) (l : Ledger κ ρ) : Prop :=
  ∀ r ∈ l.live, r ∉ started → ∃ i, l.held i = some r

/-- What an operation may do. Obtaining and moving overwrite what the owner held. -/
inductive Effect (l : Ledger κ ρ) : Ledger κ ρ → Prop where
  | same : Effect l l
  | spill {live : Set ρ} (h : l.live ⊆ live) : Effect l ⟨l.held,live⟩
  | obtain {live : Set ρ} {i : κ} {r : ρ} (hnew : r ∉ l.live) (hr : r ∈ live)
      (h : l.live ⊆ live) : Effect l ⟨Function.update l.held i (some r),live⟩
  | move (i j : κ) :
      Effect l ⟨Function.update (Function.update l.held i (l.held j)) j none,l.live⟩
  | release {i : κ} {r : ρ} (hr : l.held i = some r) :
      Effect l ⟨Function.update l.held i none,l.live \ {r}⟩

section Update
variable {held : κ → Option ρ} {i j k : κ} {r s : ρ}

theorem update_none (h : Function.update held i none j = some r) : j ≠ i ∧ held j = some r := by
  by_cases hj : j = i
  · subst hj
    rw [Function.update_self] at h
    cases h
  · rw [Function.update_of_ne hj] at h
    exact ⟨hj,h⟩

theorem update_some (h : Function.update held i (some s) j = some r) :
    j = i ∧ r = s ∨ j ≠ i ∧ held j = some r := by
  by_cases hj : j = i
  · subst hj
    rw [Function.update_self] at h
    cases h
    exact Or.inl ⟨rfl,rfl⟩
  · rw [Function.update_of_ne hj] at h
    exact Or.inr ⟨hj,h⟩

theorem update_move
    (h : Function.update (Function.update held i (held j)) j none k = some r) :
    k ≠ j ∧ (k = i ∧ held j = some r ∨ k ≠ i ∧ held k = some r) := by
  obtain ⟨hk,h⟩ := update_none h
  refine ⟨hk,?_⟩
  by_cases hi : k = i
  · subst hi
    rw [Function.update_self] at h
    exact Or.inl ⟨rfl,h⟩
  · rw [Function.update_of_ne hi] at h
    exact Or.inr ⟨hi,h⟩

end Update

theorem Effect.exclusive {l m : Ledger κ ρ} (h : Effect l m) (hl : Exclusive l) :
    Exclusive m := by
  cases h with
  | same => exact hl
  | spill h => exact ⟨hl.unique,fun i r hi => h (hl.live i r hi)⟩
  | @obtain live k r hnew hr h =>
    constructor
    · intro i j s hi hj
      obtain ⟨hik,hs⟩ | ⟨-,hi⟩ := update_some hi
      · obtain ⟨hjk,-⟩ | ⟨-,hj⟩ := update_some hj
        · rw [hik,hjk]
        · rw [hs] at hj
          exact absurd (hl.live j r hj) hnew
      · obtain ⟨-,hs⟩ | ⟨-,hj⟩ := update_some hj
        · rw [hs] at hi
          exact absurd (hl.live i r hi) hnew
        · exact hl.unique i j s hi hj
    · intro i s hi
      obtain ⟨-,rfl⟩ | ⟨-,hi⟩ := update_some hi
      · exact hr
      · exact h (hl.live i s hi)
  | move t f =>
    constructor
    · intro i j s hi hj
      obtain ⟨hif,⟨hi,hs⟩ | ⟨-,hs⟩⟩ := update_move hi
      · obtain ⟨hjf,⟨hj,-⟩ | ⟨-,hs'⟩⟩ := update_move hj
        · rw [hi,hj]
        · exact absurd (hl.unique j f s hs' hs) hjf
      · obtain ⟨hjf,⟨-,hs'⟩ | ⟨-,hs'⟩⟩ := update_move hj
        · exact absurd (hl.unique i f s hs hs') hif
        · exact hl.unique i j s hs hs'
    · intro i s hi
      obtain ⟨-,⟨-,hs⟩ | ⟨-,hs⟩⟩ := update_move hi
      · exact hl.live f s hs
      · exact hl.live i s hs
  | @release k r hr =>
    constructor
    · intro i j s hi hj
      exact hl.unique i j s (update_none hi).2 (update_none hj).2
    · intro i s hi
      obtain ⟨hne,hs⟩ := update_none hi
      refine ⟨hl.live i s hs,?_⟩
      intro hsr
      obtain rfl : s = r := hsr
      exact hne (hl.unique i k s hs hr)

theorem Exclusive.released {l : Ledger κ ρ} (hl : Exclusive l) {i : κ} {r : ρ}
    (hr : l.held i = some r) (j : κ) : Function.update l.held i none j ≠ some r := by
  intro hj
  obtain ⟨hne,hj⟩ := update_none hj
  exact hne (hl.unique j i r hj hr)

section Loss
variable {started : Set ρ} {l m : Ledger κ ρ}

theorem Effect.foreign (h : Effect l m) (hl : Foreign started l) : Foreign started m := by
  cases h with
  | same => exact hl
  | spill h => exact ⟨hl.live.trans h,hl.held⟩
  | obtain hnew hr h =>
    refine ⟨hl.live.trans h,?_⟩
    intro i s hi
    obtain ⟨-,rfl⟩ | ⟨-,hi⟩ := update_some hi
    · exact fun hs => hnew (hl.live hs)
    · exact hl.held i s hi
  | move t f =>
    refine ⟨hl.live,?_⟩
    intro i s hi
    obtain ⟨-,⟨-,hs⟩ | ⟨-,hs⟩⟩ := update_move hi
    · exact hl.held f s hs
    · exact hl.held i s hs
  | @release k r hr =>
    constructor
    · intro s hs
      refine ⟨hl.live hs,?_⟩
      intro hsr
      obtain rfl : s = r := hsr
      exact hl.held k _ hr hs
    · intro i s hi
      exact hl.held i s (update_none hi).2

theorem Accounted.release (h : Accounted started l) {i : κ} {r : ρ} (hr : l.held i = some r) :
    Accounted started ⟨Function.update l.held i none,l.live \ {r}⟩ := by
  intro s hs hnew
  obtain ⟨j,hj⟩ := h s hs.1 hnew
  have hne : j ≠ i := by
    intro he
    subst he
    exact hs.2 (Option.some.inj (hj.symm.trans hr))
  refine ⟨j,?_⟩
  change Function.update l.held i none j = some s
  rw [Function.update_of_ne hne]
  exact hj

/-- Obtaining a resource loses what the owner held. -/
theorem Accounted.obtain_iff (hl : Exclusive l) (hf : Foreign started l)
    (h : Accounted started l) {i : κ} {r : ρ} (hnew : r ∉ l.live) :
    Accounted started ⟨Function.update l.held i (some r),insert r l.live⟩ ↔
      l.held i = none := by
  constructor
  · intro ha
    by_contra hne
    obtain ⟨s,hi⟩ := Option.ne_none_iff_exists'.mp hne
    have hlive := hl.live i s hi
    obtain ⟨j,hj⟩ := ha s (Or.inr hlive) (hf.held i s hi)
    obtain ⟨-,rfl⟩ | ⟨hne,hj⟩ := update_some hj
    · exact hnew hlive
    · exact hne (hl.unique j i s hj hi)
  · intro hi s hs hns
    obtain rfl | hs := hs
    · exact ⟨i,Function.update_self i (some s) l.held⟩
    · obtain ⟨j,hj⟩ := h s hs hns
      have hne : j ≠ i := by
        intro he
        subst he
        cases hi.symm.trans hj
      refine ⟨j,?_⟩
      change Function.update l.held i (some r) j = some s
      rw [Function.update_of_ne hne]
      exact hj

/-- A move loses what its target held, also when the target is the source. -/
theorem Accounted.move_iff (hl : Exclusive l) (hf : Foreign started l)
    (h : Accounted started l) (i j : κ) :
    Accounted started
        ⟨Function.update (Function.update l.held i (l.held j)) j none,l.live⟩ ↔
      l.held i = none := by
  constructor
  · intro ha
    by_contra hne
    obtain ⟨s,hi⟩ := Option.ne_none_iff_exists'.mp hne
    obtain ⟨k,hk⟩ := ha s (hl.live i s hi) (hf.held i s hi)
    obtain ⟨hkj,⟨rfl,hs⟩ | ⟨hki,hs⟩⟩ := update_move hk
    · exact hkj (hl.unique k j s hi hs)
    · exact hki (hl.unique k i s hs hi)
  · intro hi s hs hns
    obtain ⟨k,hk⟩ := h s hs hns
    have hki : k ≠ i := by
      intro he
      subst he
      cases hi.symm.trans hk
    by_cases hkj : k = j
    · subst hkj
      exact ⟨i,by simp [hki.symm,hk]⟩
    · exact ⟨k,by simp [hkj,hki,hk]⟩

omit [DecidableEq κ] in
theorem Accounted.closed (h : Accounted started l) (hn : ∀ i, l.held i = none) :
    l.live ⊆ started := by
  intro r hr
  by_contra hs
  obtain ⟨i,hi⟩ := h r hr hs
  cases (hn i).symm.trans hi

end Loss
end Ownership
