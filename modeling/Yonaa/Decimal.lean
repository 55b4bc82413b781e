import Mathlib

/-! Natural numbers in ASCII decimal text, and lists of them with a separator. -/
namespace Decimal

/-- The digits of n, without leading zeros. -/
def text (n : Nat) : List UInt8 := (Nat.toDigits 10 n).map Char.toUInt8

def isDigit (b : UInt8) : Bool := 48 ≤ b && b ≤ 57

/-- The number a text of digits stands for. -/
def value (t : List UInt8) : Option Nat :=
  if t ≠ [] ∧ t.all isDigit then some (Nat.ofDigitChars 10 (t.map Char.ofUInt8) 0) else none

theorem ofUInt8_toUInt8 {c : Char} (h : c.isDigit = true) :
    Char.ofUInt8 c.toUInt8 = c ∧ isDigit c.toUInt8 = true := by
  simp only [Char.isDigit,Bool.and_eq_true,decide_eq_true_eq,ge_iff_le,UInt32.le_iff_toNat_le] at h
  obtain ⟨hlow,hhigh⟩ := h
  have hlow' : 48 ≤ c.val.toNat := hlow
  have hhigh' : c.val.toNat ≤ 57 := hhigh
  have hbyte : c.toUInt8.toNat = c.val.toNat := by
    rw [Char.toUInt8,UInt32.toNat_toUInt8]
    exact Nat.mod_eq_of_lt (by omega)
  constructor
  · refine Char.ext (UInt32.toNat_inj.mp ?_)
    rw [Char.ofUInt8,UInt8.toNat_toUInt32]
    exact hbyte
  · simp only [isDigit,Bool.and_eq_true,decide_eq_true_eq,UInt8.le_iff_toNat_le,hbyte]
    exact ⟨hlow',hhigh'⟩

theorem text_ne_nil (n : Nat) : text n ≠ [] := by
  rw [text,ne_eq,List.map_eq_nil_iff]
  exact Nat.toDigits_ne_nil

theorem isDigit_of_mem_text {n : Nat} {b : UInt8} (h : b ∈ text n) : isDigit b = true := by
  obtain ⟨c,hc,rfl⟩ := List.mem_map.mp h
  exact (ofUInt8_toUInt8 (Nat.isDigit_of_mem_toDigits (by decide) (by decide) hc)).2

theorem length_text_le {n k : Nat} (hk : 0 < k) (h : n < 10^k) : (text n).length ≤ k := by
  rw [text,List.length_map]
  exact (Nat.length_toDigits_le_iff (by decide) hk).mpr h

theorem value_text (n : Nat) : value (text n) = some n := by
  have hall : (text n).all isDigit = true := List.all_eq_true.mpr fun b hb => isDigit_of_mem_text hb
  have hchars : (text n).map Char.ofUInt8 = Nat.toDigits 10 n := by
    rw [text,List.map_map]
    refine (List.map_congr_left ?_).trans (List.map_id _)
    intro c hc
    exact (ofUInt8_toUInt8 (Nat.isDigit_of_mem_toDigits (by decide) (by decide) hc)).1
  rw [value,if_pos ⟨text_ne_nil n,hall⟩,hchars,Nat.ofDigitChars_ten_toDigits]

/-! Lists. -/

/-- The numbers with the separator between them. -/
def listText (sep : UInt8) (ns : List Nat) : List UInt8 := [sep].intercalate (ns.map text)

def listValue (sep : UInt8) (t : List UInt8) : Option (List Nat) := (t.splitOn sep).mapM value

theorem mapM_value (ns : List Nat) : (ns.map text).mapM value = some ns := by
  induction ns with
  | nil => rfl
  | cons n ns ih =>
    rw [List.map_cons,List.mapM_cons,value_text,ih]
    rfl

theorem not_mem_text {sep : UInt8} (hsep : isDigit sep = false) (n : Nat) : sep ∉ text n := by
  intro h
  rw [isDigit_of_mem_text h] at hsep
  cases hsep

theorem listValue_listText {sep : UInt8} {ns : List Nat} (hsep : isDigit sep = false)
    (hns : ns ≠ []) : listValue sep (listText sep ns) = some ns := by
  rw [listValue,listText,List.splitOn_intercalate]
  · exact mapM_value ns
  · intro t ht
    obtain ⟨n,-,rfl⟩ := List.mem_map.mp ht
    exact not_mem_text hsep n
  · exact fun h => hns (List.map_eq_nil_iff.mp h)

theorem mem_listText {sep b : UInt8} {ns : List Nat} (h : b ∈ listText sep ns) :
    b = sep ∨ isDigit b = true := by
  induction ns with
  | nil => cases h
  | cons n ns ih =>
    cases ns with
    | nil =>
      rw [listText,List.map_singleton,List.intercalate_singleton] at h
      exact Or.inr (isDigit_of_mem_text h)
    | cons m ns =>
      rw [listText,List.map_cons,List.map_cons,List.intercalate_cons_cons] at h
      obtain h | h := List.mem_append.mp h
      · obtain h | h := List.mem_append.mp h
        · exact Or.inr (isDigit_of_mem_text h)
        · exact Or.inl (List.mem_singleton.mp h)
      · exact ih h

theorem length_listText_lt {sep : UInt8} {ns : List Nat} {k : Nat} (hk : 0 < k) (hns : ns ≠ [])
    (h : ∀ n ∈ ns, n < 10^k) : (listText sep ns).length < (k+1)*ns.length := by
  induction ns with
  | nil => exact absurd rfl hns
  | cons n ns ih =>
    obtain ⟨hn,hrest⟩ := List.forall_mem_cons.mp h
    have hlength := length_text_le hk hn
    cases ns with
    | nil =>
      rw [listText,List.map_singleton,List.intercalate_singleton,List.length_singleton]
      omega
    | cons m ns =>
      have hnext := ih (List.cons_ne_nil m ns) hrest
      rw [listText,List.map_cons] at hnext
      rw [listText,List.map_cons,List.map_cons,List.intercalate_cons_cons,List.length_append,
        List.length_append,List.length_singleton,List.length_cons,Nat.mul_succ]
      omega

end Decimal
