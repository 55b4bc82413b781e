import Mathlib

/-! State programs that may stop early, and their runs as walks of a transition
system. A stopped program keeps the state it stopped in, so a specification has
two postconditions: one for a normal return and one for a stop. -/

/-- A program over states σ that returns an α or stops for a reason in ε. -/
structure Prog (ε σ α : Type) where
  run : σ → Except ε α × σ

namespace Prog
variable {ε σ τ α β γ : Type}

instance : Monad (Prog ε σ) where
  pure a := ⟨fun s => (.ok a, s)⟩
  bind m k := ⟨fun s =>
    match m.run s with
    | (.ok a, s') => (k a).run s'
    | (.error e, s') => (.error e, s')⟩

def get : Prog ε σ σ := ⟨fun s => (.ok s, s)⟩

def modify (f : σ → σ) : Prog ε σ Unit := ⟨fun s => (.ok (), f s)⟩

def stop (e : ε) : Prog ε σ α := ⟨fun s => (.error e, s)⟩

/-- Run a program on a component of a larger state. `put` sees the old state. -/
def zoom (part : σ → τ) (put : σ → τ → σ) (m : Prog ε τ α) : Prog ε σ α :=
  ⟨fun s => ((m.run (part s)).1, put s (m.run (part s)).2)⟩

theorem run_bind (m : Prog ε σ α) (k : α → Prog ε σ β) (s : σ) :
    (m >>= k).run s = match m.run s with
      | (.ok a, s') => (k a).run s'
      | (.error e, s') => (.error e, s') := rfl

theorem bind_ok {m : Prog ε σ α} {k : α → Prog ε σ β} {s s' : σ} {a : α}
    (h : m.run s = (.ok a, s')) : (m >>= k).run s = (k a).run s' := by
  rw [run_bind,h]

theorem bind_error {m : Prog ε σ α} {k : α → Prog ε σ β} {s s' : σ} {e : ε}
    (h : m.run s = (.error e, s')) : (m >>= k).run s = (.error e, s') := by
  rw [run_bind,h]

theorem of_bind_ok {m : Prog ε σ α} {k : α → Prog ε σ β} {s t : σ} {b : β}
    (h : (m >>= k).run s = (.ok b, t)) :
    ∃ a u, m.run s = (.ok a, u) ∧ (k a).run u = (.ok b, t) := by
  cases hm : m.run s with
  | mk r u => cases r with
    | ok a =>
      rw [bind_ok hm] at h
      exact ⟨a,u,rfl,h⟩
    | error e =>
      rw [bind_error hm] at h
      cases h

@[simp] theorem run_pure (a : α) (s : σ) : (pure a : Prog ε σ α).run s = (.ok a, s) := rfl

@[simp] theorem run_modify (f : σ → σ) (s : σ) :
    (modify f : Prog ε σ Unit).run s = (.ok (), f s) := rfl

@[simp] theorem run_stop (e : ε) (s : σ) : (stop e : Prog ε σ α).run s = (.error e, s) := rfl

@[simp] theorem run_get_bind (k : σ → Prog ε σ β) (s : σ) :
    (get >>= k).run s = (k s).run s := rfl

@[simp] theorem run_modify_bind (f : σ → σ) (k : Unit → Prog ε σ β) (s : σ) :
    (modify f >>= k).run s = (k ()).run (f s) := rfl

@[simp] theorem run_pure_bind (a : α) (k : α → Prog ε σ β) (s : σ) :
    ((pure a : Prog ε σ α) >>= k).run s = (k a).run s := rfl

@[simp] theorem run_stop_bind (e : ε) (k : α → Prog ε σ β) (s : σ) :
    ((stop e : Prog ε σ α) >>= k).run s = (.error e, s) := rfl

@[simp] theorem run_bind_bind (m : Prog ε σ α) (k : α → Prog ε σ β) (l : β → Prog ε σ γ)
    (s : σ) : ((m >>= k) >>= l).run s = (m >>= fun a => k a >>= l).run s := by
  simp only [run_bind]
  cases m.run s with
  | mk r s' => cases r <;> rfl

theorem bind_bind (m : Prog ε σ α) (k : α → Prog ε σ β) (l : β → Prog ε σ γ) :
    (m >>= k) >>= l = m >>= fun a => k a >>= l :=
  congrArg Prog.mk (funext fun s => run_bind_bind m k l s)

/-! Postconditions. -/

/-- The two postconditions, read at an outcome. -/
def Holds (Q : α → σ → Prop) (E : ε → σ → Prop) : Except ε α × σ → Prop
  | (.ok a, s) => Q a s
  | (.error e, s) => E e s

@[simp] theorem holds_ok (Q : α → σ → Prop) (E : ε → σ → Prop) (a : α) (s : σ) :
    Holds Q E (.ok a, s) ↔ Q a s := Iff.rfl

@[simp] theorem holds_error (Q : α → σ → Prop) (E : ε → σ → Prop) (e : ε) (s : σ) :
    Holds Q E (.error e, s) ↔ E e s := Iff.rfl

theorem Holds.mono {Q Q' : α → σ → Prop} {E E' : ε → σ → Prop} {r : Except ε α × σ}
    (h : Holds Q E r) (hq : ∀ a s, Q a s → Q' a s) (he : ∀ e s, E e s → E' e s) :
    Holds Q' E' r := by
  cases r with
  | mk r s => cases r with
    | error e => exact he e s h
    | ok a => exact hq a s h

theorem Holds.bind {m : Prog ε σ α} {k : α → Prog ε σ β} {Q : α → σ → Prop}
    {R : β → σ → Prop} {E : ε → σ → Prop} {s : σ} (h : Holds Q E (m.run s))
    (hk : ∀ a s', Q a s' → Holds R E ((k a).run s')) : Holds R E ((m >>= k).run s) := by
  rw [run_bind]
  generalize m.run s = r at h ⊢
  cases r with
  | mk r s' => cases r with
    | error e => exact h
    | ok a => exact hk a s' h

/-! Walks. A control point says where the program is; R is a step relation on
pairs of a control point and a state. -/

/-- Some walk from (p,s) ends in the state t, at a point q with Q q t. -/
def Walk {π : Type} (R : π × σ → π × σ → Prop) (p : π) (s : σ) (Q : π → σ → Prop) (t : σ) :
    Prop :=
  ∃ q, Relation.ReflTransGen R (p, s) (q, t) ∧ Q q t

/-- From every point and state in P, m walks along R to the state it ends in, at
a point that satisfies Q after a return and E after a stop. -/
def Traces {π : Type} (R : π × σ → π × σ → Prop) (P : π → σ → Prop) (m : Prog ε σ α)
    (Q : α → π → σ → Prop) (E : ε → π → σ → Prop) : Prop :=
  ∀ p s, P p s → Holds (fun a => Walk R p s (Q a)) (fun e => Walk R p s (E e)) (m.run s)

namespace Traces
open Relation
variable {π : Type} {R : π × σ → π × σ → Prop} {P P' : π → σ → Prop}
  {Q : α → π → σ → Prop} {E : ε → π → σ → Prop}

theorem pure {a : α} (h : ∀ p s, P p s → Q a p s) : Traces R P (Pure.pure a) Q E :=
  fun p s hp => ⟨p,.refl,h p s hp⟩

theorem stop {e : ε} (h : ∀ p s, P p s → E e p s) : Traces R P (Prog.stop e) Q E :=
  fun p s hp => ⟨p,.refl,h p s hp⟩

theorem bind {m : Prog ε σ α} {k : α → Prog ε σ β} {S : β → π → σ → Prop}
    (hm : Traces R P m Q E) (hk : ∀ a, Traces R (Q a) (k a) S E) :
    Traces R P (m >>= k) S E := by
  intro p s hp
  refine (hm p s hp).bind ?_
  intro a t hwalk
  obtain ⟨q,hreach,hq⟩ := hwalk
  refine (hk a q t hq).mono ?_ ?_
  · intro b u hu
    obtain ⟨q',hreach',hs⟩ := hu
    exact ⟨q',hreach.trans hreach',hs⟩
  · intro e u hu
    obtain ⟨q',hreach',hs⟩ := hu
    exact ⟨q',hreach.trans hreach',hs⟩

theorem weaken {m : Prog ε σ α} (h : Traces R P m Q E) (hp : ∀ p s, P' p s → P p s) :
    Traces R P' m Q E := fun p s hs => h p s (hp p s hs)

/-- A step in front of the program that leaves the state alone. -/
theorem after {S : π → σ → Prop} {m : Prog ε σ α}
    (hstep : ∀ p s, P p s → ∃ q, R (p, s) (q, s) ∧ S q s) (h : Traces R S m Q E) :
    Traces R P m Q E := by
  intro p s hp
  obtain ⟨q,hq,hp'⟩ := hstep p s hp
  refine (h q s hp').mono ?_ ?_
  · intro a t ht
    obtain ⟨q',hreach,ha⟩ := ht
    exact ⟨q',.head hq hreach,ha⟩
  · intro e t ht
    obtain ⟨q',hreach,he⟩ := ht
    exact ⟨q',.head hq hreach,he⟩

theorem get_bind {k : σ → Prog ε σ α}
    (h : ∀ t, Traces R (fun p s => P p s ∧ s = t) (k t) Q E) :
    Traces R P (Prog.get >>= k) Q E := fun p s hp => h s p s ⟨hp,rfl⟩

/-- A program whose whole run is one step. -/
theorem step {m : Prog ε σ α} (hok : ∀ p s, P p s → ∀ a t, m.run s = (.ok a, t) →
      ∃ q, R (p, s) (q, t) ∧ Q a q t)
    (herr : ∀ p s, P p s → ∀ e t, m.run s = (.error e, t) → ∃ q, R (p, s) (q, t) ∧ E e q t) :
    Traces R P m Q E := by
  intro p s hp
  have ho := hok p s hp
  have he := herr p s hp
  generalize m.run s = r at ho he ⊢
  cases r with
  | mk r t => cases r with
    | ok a =>
      obtain ⟨q,hstep,hq⟩ := ho a t rfl
      exact ⟨q,.single hstep,hq⟩
    | error e =>
      obtain ⟨q,hstep,hq⟩ := he e t rfl
      exact ⟨q,.single hstep,hq⟩

theorem ite {c : Prop} [Decidable c] {m n : Prog ε σ α}
    (ht : c → Traces R P m Q E) (hf : ¬c → Traces R P n Q E) :
    Traces R P (if c then m else n) Q E := by
  by_cases hc : c
  · rw [if_pos hc]
    exact ht hc
  · rw [if_neg hc]
    exact hf hc

theorem forM {body : β → Prog ε σ PUnit} (h : ∀ b, Traces R P (body b) (fun _ => P) E)
    (bs : List β) : Traces R P (bs.forM body) (fun _ => P) E := by
  induction bs with
  | nil => exact Traces.pure fun _ _ hp => hp
  | cons b bs ih => exact (h b).bind fun _ => ih

end Traces
end Prog
