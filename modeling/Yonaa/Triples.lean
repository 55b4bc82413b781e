import Yonaa.Prog

/-! Pre- and postconditions of state programs that may stop, and their rules. -/
namespace Prog
variable {ε σ τ α β : Type}

/-- From a state in P the program returns to a state in Q, or it stops in one in E. -/
def Triple (P : σ → Prop) (m : Prog ε σ α) (Q : α → σ → Prop) (E : ε → σ → Prop) : Prop :=
  ∀ s, P s → Holds Q E (m.run s)

namespace Triple
variable {P P' : σ → Prop} {Q Q' : α → σ → Prop} {R : β → σ → Prop} {E E' : ε → σ → Prop}
  {m n : Prog ε σ α}

theorem pure {a : α} (h : ∀ s, P s → Q a s) : Triple P (Pure.pure a) Q E := h

theorem stop {e : ε} (h : ∀ s, P s → E e s) : Triple P (Prog.stop e) Q E := h

theorem modify {f : σ → σ} {Q : Unit → σ → Prop} (h : ∀ s, P s → Q () (f s)) :
    Triple P (Prog.modify f) Q E := h

theorem bind {k : α → Prog ε σ β} (hm : Triple P m Q E) (hk : ∀ a, Triple (Q a) (k a) R E) :
    Triple P (m >>= k) R E := fun s hs => (hm s hs).bind hk

theorem mono (h : Triple P m Q E) (hp : ∀ s, P' s → P s) (hq : ∀ a s, Q a s → Q' a s)
    (he : ∀ e s, E e s → E' e s) : Triple P' m Q' E' := fun s hs => (h s (hp s hs)).mono hq he

theorem weaken (h : Triple P m Q E) (hp : ∀ s, P' s → P s) : Triple P' m Q E :=
  fun s hs => h s (hp s hs)

theorem get_bind {k : σ → Prog ε σ α} (h : ∀ t, P t → Holds Q E ((k t).run t)) :
    Triple P (Prog.get >>= k) Q E := h

theorem ite {c : Prop} [Decidable c] (ht : c → Triple P m Q E) (hf : ¬c → Triple P n Q E) :
    Triple P (if c then m else n) Q E := by
  by_cases hc : c
  · rw [if_pos hc]
    exact ht hc
  · rw [if_neg hc]
    exact hf hc

/-- A program on a component, by what it does from the component of each state. -/
theorem zoom {part : σ → τ} {put : σ → τ → σ} {m : Prog ε τ α} (h : ∀ s, P s →
    Holds (fun a t => Q a (put s t)) (fun e t => E e (put s t)) (m.run (part s))) :
    Triple P (Prog.zoom part put m) Q E := by
  intro s hs
  have ht := h s hs
  have hrun : (Prog.zoom part put m).run s =
      ((m.run (part s)).1, put s (m.run (part s)).2) := rfl
  rw [hrun]
  generalize m.run (part s) = r at ht ⊢
  cases r with
  | mk r t => cases r with
    | ok a => exact ht
    | error e => exact ht

theorem forM {body : β → Prog ε σ PUnit} (h : ∀ b, Triple P (body b) (fun _ => P) E)
    (bs : List β) : Triple P (bs.forM body) (fun _ => P) E := by
  induction bs with
  | nil => exact Triple.pure fun _ hs => hs
  | cons b bs ih => exact (h b).bind fun _ => ih

end Triple

/-- The program keeps I, whether it returns or stops. -/
def Keeps (I : σ → Prop) (m : Prog ε σ α) : Prop := Triple I m (fun _ => I) fun _ => I

namespace Keeps
variable {I : σ → Prop} {m n : Prog ε σ α}

theorem pure (a : α) : Keeps I (Pure.pure a : Prog ε σ α) := Triple.pure fun _ hs => hs

theorem stop (e : ε) : Keeps I (Prog.stop e : Prog ε σ α) := Triple.stop fun _ hs => hs

theorem modify {f : σ → σ} (h : ∀ s, I s → I (f s)) : Keeps I (Prog.modify f : Prog ε σ Unit) :=
  Triple.modify h

theorem bind {k : α → Prog ε σ β} (hm : Keeps I m) (hk : ∀ a, Keeps I (k a)) :
    Keeps I (m >>= k) := Triple.bind hm hk

theorem get_bind {k : σ → Prog ε σ α} (h : ∀ t, Keeps I (k t)) : Keeps I (Prog.get >>= k) :=
  Triple.get_bind fun t ht => h t t ht

theorem ite {c : Prop} [Decidable c] (ht : Keeps I m) (hf : Keeps I n) :
    Keeps I (if c then m else n) := Triple.ite (fun _ => ht) fun _ => hf

end Keeps
end Prog
