import Yonaa.Buffer

/-! The comparisons of buffer.hpp and endpoint.cpp. -/
namespace Yonaa

/-- Which list has the smaller byte at the first place where they differ. -/
def byteOrder : List Byte → List Byte → Int
  | x::xs, y::ys => if x < y then -1 else if y < x then 1 else byteOrder xs ys
  | _, _ => 0

/-- `std::memcmp`. It reads n bytes of both lists and has no result if one of them has fewer. -/
def memcmp (xs ys : List Byte) (n : Nat) : Option Int :=
  if n ≤ xs.length ∧ n ≤ ys.length then some (byteOrder (xs.take n) (ys.take n)) else none

theorem byteOrder_eq_zero {xs ys : List Byte} (h : xs.length = ys.length) :
    byteOrder xs ys = 0 ↔ xs = ys := by
  induction xs generalizing ys with
  | nil =>
    obtain rfl := List.length_eq_zero_iff.mp h.symm
    exact iff_of_true rfl rfl
  | cons x xs ih =>
    obtain ⟨y,ys,rfl⟩ := List.exists_cons_of_length_eq_add_one h.symm
    have hrest := ih (Nat.succ.inj h)
    rw [byteOrder,List.cons.injEq]
    by_cases hlt : x < y
    · rw [if_pos hlt]
      exact iff_of_false (by decide) fun heq => UInt8.ne_of_lt hlt heq.1
    · rw [if_neg hlt]
      by_cases hgt : y < x
      · rw [if_pos hgt]
        exact iff_of_false (by decide) fun heq => UInt8.ne_of_lt hgt heq.1.symm
      · rw [if_neg hgt,hrest]
        have heq : x = y := UInt8.le_antisymm (UInt8.not_lt.mp hgt) (UInt8.not_lt.mp hlt)
        exact ⟨fun hxs => ⟨heq,hxs⟩,And.right⟩

/-- The comparison reads nothing outside exactly if both lists have n bytes. -/
theorem memcmp_eq_none {xs ys : List Byte} {n : Nat} :
    memcmp xs ys n = none ↔ xs.length < n ∨ ys.length < n := by
  by_cases h : n ≤ xs.length ∧ n ≤ ys.length
  · rw [memcmp,if_pos h]
    exact iff_of_false (by simp) (by omega)
  · rw [memcmp,if_neg h]
    exact iff_of_true rfl (by omega)

theorem memcmp_inside {xs ys : List Byte} {n : Nat} (hxs : n ≤ xs.length) (hys : n ≤ ys.length) :
    ∃ r, memcmp xs ys n = some r ∧ (r = 0 ↔ xs.take n = ys.take n) := by
  refine ⟨_,if_pos ⟨hxs,hys⟩,byteOrder_eq_zero ?_⟩
  rw [List.length_take_of_le hxs,List.length_take_of_le hys]

/-! Buffers. -/

abbrev Text := { bytes : List Byte // bytes.length < 2^64 }

namespace Buffer

/-- `buffer(data, size)`. -/
def ofChars (data : List Byte) (size : Nat) : Buffer := ofList (data.take size)

/-- `buffer(const std::string &)`. -/
def ofString (s : Text) : Buffer := ofChars s.1 s.1.length

def str (b : Buffer) : Text := ⟨b.data, b.size_lt⟩

/-- `operator==` returns the result of `memcmp` as a bool. -/
def eq (b other : Buffer) : Option Bool :=
  if b.size ≠ other.size then some false
  else (memcmp b.data other.data b.size).map (· != 0)

theorem data_ofSize {n : Nat} (h : n < 2^64) : (ofSize n).data = List.replicate n 0 :=
  data_ofList (by rwa [List.length_replicate])

theorem data_ofString (s : Text) : (ofString s).data = s.1 := by
  rw [ofString,ofChars,List.take_length]
  exact data_ofList s.2

theorem str_ofString (s : Text) : (ofString s).str = s := Subtype.ext (data_ofString s)

theorem ofString_str (b : Buffer) : ofString b.str = b := by
  obtain ⟨data,hdata⟩ := b
  have h := data_ofString (str ⟨data,hdata⟩)
  generalize ofString _ = b' at h ⊢
  cases b'
  cases h
  rfl

theorem eq_true_iff (b other : Buffer) :
    b.eq other = some true ↔ b.size = other.size ∧ b.data ≠ other.data := by
  unfold eq
  by_cases hsize : b.size = other.size
  · obtain ⟨r,hr,hzero⟩ := memcmp_inside (Nat.le_refl b.size) (Nat.le_of_eq hsize)
    have hother : other.data.take b.size = other.data :=
      List.take_of_length_le (Nat.le_of_eq hsize.symm)
    have hself : b.data.take b.size = b.data := List.take_length
    rw [hself,hother] at hzero
    rw [if_neg (not_not.mpr hsize),hr]
    simp [hsize,hzero]
  · rw [if_pos hsize]
    exact iff_of_false (by simp) fun h => hsize h.1

theorem unequal_self (b : Buffer) : b.eq b = some false := by
  have hne : b.eq b ≠ some true := fun h => ((eq_true_iff b b).mp h).2 rfl
  obtain ⟨r,hr,-⟩ := memcmp_inside (Nat.le_refl b.size) (Nat.le_refl b.data.length)
  unfold eq at hne ⊢
  rw [if_neg (not_not.mpr rfl),hr] at hne ⊢
  simpa using hne

/-- Buffers made from s and t are equal exactly if s and t are, and hold them. -/
structure ContentEqual (s t : Text) : Prop where
  equal : (ofString s).eq (ofString t) = some true ↔ s = t
  str : (ofString s).str = s

/-- The comparison is right exactly if the sizes differ. No buffer is equal to itself, so none
to one made from its `str`. -/
theorem contentEqual_iff (s t : Text) (b : Buffer) :
    (ContentEqual s t ↔ s.1.length ≠ t.1.length) ∧
      ofString b.str = b ∧ b.eq b = some false := by
  refine ⟨?_,ofString_str b,unequal_self b⟩
  have htrue := eq_true_iff (ofString s) (ofString t)
  rw [size,size,data_ofString,data_ofString] at htrue
  constructor
  · intro h hlen
    by_cases hst : s = t
    · exact (htrue.mp (h.equal.mpr hst)).2 (congrArg Subtype.val hst)
    · exact hst (h.equal.mp (htrue.mpr ⟨hlen,fun hdata => hst (Subtype.ext hdata)⟩))
  · intro hlen
    refine ⟨iff_of_false (fun h => hlen (htrue.mp h).1) ?_,str_ofString s⟩
    intro hst
    exact hlen (congrArg (fun s : Text => s.1.length) hst)

/-- Two buffers of one byte each, with the same byte. -/
theorem sameByte_unequal : ¬∀ s t : Text, ContentEqual s t := by
  intro h
  have htrue := (h ⟨[7],by decide⟩ ⟨[7],by decide⟩).equal.mpr rfl
  cases htrue

end Buffer

/-! Endpoints. -/
namespace Endpoint

def size (e : Endpoint) : Nat := e.storage.size % 2^32

/-- `operator==` compares as many bytes as the left operand has. -/
def eq (e other : Endpoint) : Option Bool :=
  (memcmp e.storage.data other.storage.data e.size).map (· == 0)

/-- The endpoints that the constructors make; `addr_size` is a `socklen_t`. -/
inductive Made : Endpoint → Prop where
  | default : Made .empty
  | native (protocol : Int) (addr : List Byte) (h : addr.length < 2^32) :
      Made (.fromNativeAddress protocol addr)

theorem storage_fromNativeAddress (protocol : Int) {addr : List Byte} (h : addr.length < 2^64) :
    (fromNativeAddress protocol addr).storage.data = addr := by
  have hsize : (Buffer.ofSize addr.length).data.length = addr.length := by
    rw [Buffer.data_ofSize h,List.length_replicate]
  have hdrop : (Buffer.ofSize addr.length).data.drop addr.length = [] :=
    List.drop_eq_nil_of_le (Nat.le_of_eq hsize)
  rw [fromNativeAddress,Buffer.overwrite,hdrop,List.append_nil]
  exact Buffer.data_ofList h

theorem storage_empty : empty.storage.data = List.replicate storageSize 0 :=
  Buffer.data_ofSize (by decide)

theorem Made.size_eq {e : Endpoint} (h : e.Made) : e.size = e.storage.data.length := by
  refine Nat.mod_eq_of_lt ?_
  cases h with
  | default =>
    rw [Buffer.size,storage_empty,List.length_replicate]
    decide
  | native protocol addr h =>
    rw [Buffer.size,storage_fromNativeAddress protocol (h.trans (by decide))]
    exact h

section Compare
variable {a b : Endpoint} (ha : a.Made) (hb : b.Made)
include ha hb

theorem Made.inside_iff : (∃ r, a.eq b = some r) ↔ a.size ≤ b.size := by
  rw [ha.size_eq,hb.size_eq]
  constructor
  · intro h
    obtain ⟨r,hr⟩ := h
    obtain ⟨n,hn,-⟩ := Option.map_eq_some_iff.mp hr
    by_contra hlt
    rw [memcmp_eq_none.mpr (Or.inr (by rw [ha.size_eq]; omega))] at hn
    cases hn
  · intro h
    obtain ⟨n,hn,-⟩ := memcmp_inside (Nat.le_refl a.storage.data.length) h
    exact ⟨n == 0,by rw [Endpoint.eq,ha.size_eq,hn]; rfl⟩

/-- It is true exactly if the left storage is a prefix of the right one. -/
theorem Made.eq_true_iff : a.eq b = some true ↔ a.storage.data <+: b.storage.data := by
  by_cases hle : a.size ≤ b.size
  · rw [ha.size_eq,hb.size_eq] at hle
    obtain ⟨n,hn,hzero⟩ := memcmp_inside (Nat.le_refl a.storage.data.length) hle
    rw [Endpoint.eq,ha.size_eq,hn,List.prefix_iff_eq_take]
    rw [List.take_length] at hzero
    simpa using hzero
  · refine iff_of_false ?_ ?_
    · intro h
      exact hle ((ha.inside_iff hb).mp ⟨true,h⟩)
    · intro h
      have hlength := h.length_le
      rw [← ha.size_eq,← hb.size_eq] at hlength
      exact hle hlength

end Compare

/-- What `operator==` should be on these endpoints. -/
structure Lawful (S : Set Endpoint) : Prop where
  inside : ∀ a ∈ S, ∀ b ∈ S, ∃ r, a.eq b = some r
  refl : ∀ a ∈ S, a.eq a = some true
  symm : ∀ a ∈ S, ∀ b ∈ S, a.eq b = some true → b.eq a = some true
  trans : ∀ a ∈ S, ∀ b ∈ S, ∀ c ∈ S, a.eq b = some true → b.eq c = some true →
    a.eq c = some true
  contents : ∀ a ∈ S, ∀ b ∈ S, a.eq b = some true → a.storage.data = b.storage.data

/-- The comparison of endpoints is lawful exactly among endpoints of one size. -/
theorem lawful_iff_oneSize {S : Set Endpoint} (hS : ∀ e ∈ S, e.Made) :
    Lawful S ↔ ∀ a ∈ S, ∀ b ∈ S, a.size = b.size := by
  constructor
  · intro h a ha b hb
    have hab := ((hS a ha).inside_iff (hS b hb)).mp (h.inside a ha b hb)
    have hba := ((hS b hb).inside_iff (hS a ha)).mp (h.inside b hb a ha)
    exact Nat.le_antisymm hab hba
  · intro hsize
    -- a prefix of the same length is the whole
    have htrue : ∀ a ∈ S, ∀ b ∈ S, a.eq b = some true ↔ a.storage.data = b.storage.data := by
      intro a ha b hb
      have hlength := hsize a ha b hb
      rw [(hS a ha).size_eq,(hS b hb).size_eq] at hlength
      rw [(hS a ha).eq_true_iff (hS b hb)]
      exact ⟨fun h => h.eq_of_length hlength,fun h => h ▸ List.prefix_refl _⟩
    refine ⟨?_,?_,?_,?_,?_⟩
    · intro a ha b hb
      exact ((hS a ha).inside_iff (hS b hb)).mpr (Nat.le_of_eq (hsize a ha b hb))
    · intro a ha
      exact (htrue a ha a ha).mpr rfl
    · intro a ha b hb h
      exact (htrue b hb a ha).mpr ((htrue a ha b hb).mp h).symm
    · intro a ha b hb c hc hab hbc
      exact (htrue a ha c hc).mpr (((htrue a ha b hb).mp hab).trans ((htrue b hb c hc).mp hbc))
    · intro a ha b hb h
      exact (htrue a ha b hb).mp h

/-- The addresses of two hosts, of 16 bytes each. -/
theorem lawful_hosts : Lawful { e | ∃ last : Byte, e = .fromNativeAddress 6
    ([2,0,19,136,127,0,0,last]++List.replicate 8 0) } := by
  have hmade : ∀ e ∈ { e | ∃ last : Byte, e = fromNativeAddress 6
      ([2,0,19,136,127,0,0,last]++List.replicate 8 0) }, e.Made ∧ e.size = 16 := by
    intro e he
    obtain ⟨last,rfl⟩ := he
    have hm : Made (fromNativeAddress 6 ([2,0,19,136,127,0,0,last]++List.replicate 8 0)) :=
      .native 6 _ (by simp)
    refine ⟨hm,?_⟩
    rw [hm.size_eq,storage_fromNativeAddress 6 (by simp)]
    rfl
  refine (lawful_iff_oneSize fun e he => (hmade e he).1).mpr ?_
  intro a ha b hb
  rw [(hmade a ha).2,(hmade b hb).2]

/-- The default endpoint compared with an IPv4 address: 128 bytes of 16. -/
theorem default_outside : ¬∀ S : Set Endpoint, (∀ e ∈ S, e.Made) → Lawful S := by
  intro h
  have hnative : Made (fromNativeAddress 6 (List.replicate 16 0)) := .native 6 _ (by decide)
  have hmade : ∀ e ∈ ({empty,fromNativeAddress 6 (List.replicate 16 0)} : Set Endpoint),
      e.Made := by
    intro e he
    obtain rfl | rfl := he
    · exact .default
    · exact hnative
  have hinside := (h _ hmade).inside empty (Or.inl rfl) _ (Or.inr rfl)
  have hle := (Made.default.inside_iff hnative).mp hinside
  rw [Made.default.size_eq,hnative.size_eq,storage_empty,
    storage_fromNativeAddress 6 (by decide)] at hle
  exact absurd hle (by decide)

end Endpoint
end Yonaa
