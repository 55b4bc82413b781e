import Yonaa.Connection

/-! The loop of `connection::send`, over everything that ::send can return to it. -/
namespace Yonaa

def SysCall.taken : SysCall → List Byte
  | .send _ offered _ n => offered.take n.toNat
  | _ => []

abbrev SendResult := Except Errno Nat

namespace SendResult

def accepted : SendResult → Nat
  | .ok k => k
  | .error _ => 0

def returned : SendResult → Int
  | .ok k => k
  | .error _ => -1

def total (rs : List SendResult) : Nat := (rs.map accepted).sum

@[simp] theorem total_nil : total [] = 0 := rfl

@[simp] theorem total_cons (r : SendResult) (rs : List SendResult) :
    total (r::rs) = accepted r+total rs := rfl

def bytesSent (rs : List SendResult) : Nat :=
  rs.foldl (fun n r => Connection.addSize n (toInt (accepted r))) 0

/-- The results of a loop that has n bytes left: each is a count the kernel can return, or an
error, which is the last result. -/
inductive Complete : Nat → List SendResult → Prop where
  | all : Complete 0 []
  | failed {n : Nat} (e : Errno) (hn : 0 < n) : Complete n [.error e]
  | part {n k : Nat} {rs : List SendResult} (hk : 1 ≤ k ∧ k ≤ n ∧ k ≤ maxTransfer)
      (h : Complete (n-k) rs) : Complete n (.ok k::rs)

/-- Results the kernel can return to a loop that has n bytes left, as far as they are used. -/
inductive Allowed : Nat → List SendResult → Prop where
  | done (rs : List SendResult) : Allowed 0 rs
  | nil (n : Nat) : Allowed n []
  | failed {n : Nat} (e : Errno) (rs : List SendResult) : Allowed n (.error e::rs)
  | part {n k : Nat} {rs : List SendResult} (hk : 1 ≤ k ∧ k ≤ n ∧ k ≤ maxTransfer)
      (h : Allowed (n-k) rs) : Allowed n (.ok k::rs)

/-- The loop ends: n results are enough for n bytes. -/
theorem Allowed.complete {n : Nat} {rs : List SendResult} (h : Allowed n rs) (hn : n ≤ rs.length) :
    ∃ used unused, rs = used++unused ∧ Complete n used := by
  induction h with
  | done rs => exact ⟨[],rs,rfl,.all⟩
  | nil n =>
    obtain rfl : n = 0 := Nat.le_zero.mp hn
    exact ⟨[],[],rfl,.all⟩
  | @failed n e rs =>
    by_cases hz : n = 0
    · subst hz
      exact ⟨[],_,rfl,.all⟩
    · exact ⟨[.error e],rs,rfl,.failed e (by omega)⟩
  | @part n k rs hk h ih =>
    rw [List.length_cons] at hn
    obtain ⟨used,unused,hrs,hc⟩ := ih (by omega)
    exact ⟨.ok k::used,unused,by rw [hrs]; rfl,.part hk hc⟩

def finalCode (ec : ErrorCode) : List SendResult → ErrorCode
  | [] => ec
  | .error e::_ => .assign e.1
  | .ok _::rs => finalCode ec rs

def calls (fd : Int) (data : Buffer) (flags : Nat) : Nat → List SendResult → List SysCall
  | _, [] => []
  | n, r::rs => .send fd (data.data.drop n) flags (returned r)::
      calls fd data flags (n+accepted r) rs

end SendResult

namespace Connection
open Sys SendResult

theorem Chunks.taken {fd : Int} {data : Buffer} {flags n m : Nat} {calls : List SysCall}
    (h : Chunks fd data flags n calls m) :
    data.data.take n++calls.flatMap SysCall.taken = data.data.take m := by
  induction h with
  | nil n => simp
  | @cons n k m calls hk hn h ih =>
    rw [← ih,List.flatMap_cons,← List.append_assoc,List.take_add]
    simp [SysCall.taken]

theorem sendLoop_complete {fd : Int} {data : Buffer} {flags : Nat} {ec : ErrorCode}
    {fuel n : Nat} {rs : List SendResult} {rest : List Answer} {s : SysState}
    (hrs : Complete (data.size-n) rs) (hn : n ≤ data.size) (hf : data.size ≤ n+fuel)
    (ha : s.answers = rs.map .send++rest) :
    ∃ s', (sendLoop fd data flags ec fuel n).run s = (.ok (finalCode ec rs), s') ∧
      s'.answers = rest ∧ s'.calls = s.calls++calls fd data flags n rs ∧
      s'.kernel.fds = s.kernel.fds := by
  have hsize : data.size < 2^64 := data.size_lt
  generalize hm : data.size-n = m at hrs
  induction hrs generalizing fuel n s with
  | all =>
    have he : n = data.size := by omega
    have hrun : (sendLoop fd data flags ec fuel n).run s = (.ok ec, s) := by
      cases fuel with
      | zero => rw [sendLoop,if_neg (by omega)]; rfl
      | succ fuel => rw [sendLoop,if_neg (by omega)]; rfl
    exact ⟨s,hrun,ha,(List.append_nil _).symm,rfl⟩
  | failed e hm' =>
    obtain ⟨fuel,rfl⟩ : ∃ f, fuel = f+1 := ⟨fuel-1,by omega⟩
    rw [sendLoop,if_pos (by omega),Prog.bind_ok (send_failed fd flags _ ha),if_pos toInt_neg_one]
    exact ⟨_,Prog.bind_ok (errno_apply _),rfl,rfl,rfl⟩
  | @part m k rs hk h ih =>
    obtain ⟨fuel,rfl⟩ : ∃ f, fuel = f+1 := ⟨fuel-1,by omega⟩
    have hlen : (data.data.drop n).length = m := by
      rw [List.length_drop,← hm]
      rfl
    rw [sendLoop,if_pos (by omega),Prog.bind_ok (send_answered fd flags _ ha (hlen ▸ hk)),
      toInt_of_le hk.2.2,if_neg (by omega),addSize_eq (by omega)]
    have hf' : data.size ≤ n+k+fuel := by omega
    obtain ⟨s',hr,hans,hcalls,hfds⟩ := ih (s := ⟨s.kernel,rs.map .send++rest,
      s.calls++[.send fd (data.data.drop n) flags k]⟩) (by omega) hf' rfl (by omega)
    exact ⟨s',hr,hans,by rw [hcalls]; simp [calls,returned,SendResult.accepted],hfds⟩

theorem send_complete {c : Connection} {data : Buffer} {rs : List SendResult} {rest : List Answer}
    {s : SysState} (ec : ErrorCode) (flags : Nat) (hc : c.isConnected = true) (hd : data.size ≠ 0)
    (hrs : Complete data.size rs) (ha : s.answers = rs.map .send++rest) :
    ∃ sendFlags s', (c.send data ec flags).run s = (.ok (finalCode ec rs), s') ∧
      s'.answers = rest ∧ s'.calls = s.calls++calls c.socket data sendFlags 0 rs ∧
      s'.kernel.fds = s.kernel.fds := by
  have hg : (!c.isConnected || data.size == 0) = false := by simp [hc,hd]
  simp only [send,hg,Bool.false_eq_true,if_false]
  exact ⟨_,sendLoop_complete hrs (Nat.zero_le _) (by omega) ha⟩

end Connection

namespace SendResult

section Complete
variable {n : Nat} {rs : List SendResult} (h : Complete n rs)
include h

theorem Complete.length_le : rs.length ≤ n := by
  induction h with
  | all => exact Nat.le_refl 0
  | failed e hn => exact hn
  | @part n k rs hk h ih =>
    rw [List.length_cons]
    omega

theorem Complete.finalCode_clear : (finalCode .clear rs).isSet = false ↔ total rs = n := by
  induction h with
  | all => exact iff_of_true rfl rfl
  | @failed n e hn =>
    refine iff_of_false ?_ ?_
    · rw [finalCode,ErrorCode.isSet_errno]
      simp
    · rw [total_cons,total_nil,accepted]
      omega
  | @part n k rs hk h ih =>
    rw [finalCode,ih,total_cons,accepted]
    omega

theorem Complete.total_eq : total rs = n ∨ ∃ e : Errno, .error e ∈ rs := by
  induction h with
  | all => exact Or.inl rfl
  | failed e hn => exact Or.inr ⟨e,List.mem_cons_self⟩
  | @part n k rs hk h ih =>
    obtain htotal | ⟨e,he⟩ := ih
    · left
      rw [total_cons,accepted,htotal]
      omega
    · exact Or.inr ⟨e,List.mem_cons_of_mem _ he⟩

/-- A code that is set is that of the last result, and only that one is an error. -/
theorem Complete.finalCode_set (hset : (finalCode .clear rs).isSet = true) :
    ∃ e : Errno, ∃ ks : List Nat, rs = ks.map .ok++[.error e] ∧
      finalCode .clear rs = .assign e.1 := by
  induction h with
  | all => cases hset
  | failed e hn => exact ⟨e,[],rfl,rfl⟩
  | @part n k rs hk h ih =>
    obtain ⟨e,ks,hrs,hcode⟩ := ih hset
    exact ⟨e,k::ks,by rw [hrs]; rfl,hcode⟩

theorem Complete.total_take_le (i : Nat) : total (rs.take i) ≤ n := by
  induction h generalizing i with
  | all => simp
  | failed e hn => cases i <;> simp [accepted]
  | @part n k rs hk h ih =>
    cases i with
    | zero => simp
    | succ i =>
      have hi := ih i
      rw [List.take_succ_cons,total_cons,accepted]
      omega

theorem Complete.foldl_addSize (m i : Nat) (hm : m+n < 2^64) :
    (rs.take i).foldl (fun n r => Connection.addSize n (toInt (accepted r))) m =
      m+total (rs.take i) := by
  induction h generalizing m i with
  | all => simp
  | failed e hn =>
    cases i with
    | zero => simp
    | succ i =>
      have hm' : m+0 < 2^64 := by omega
      have hzero : Connection.addSize m (toInt (accepted (.error e : SendResult))) = m+0 :=
        Connection.addSize_eq hm'
      rw [List.take_succ_cons,List.foldl_cons,hzero]
      simp [accepted]
  | @part n k rs hk h ih =>
    cases i with
    | zero => simp
    | succ i =>
      have hk' : toInt (accepted (.ok k : SendResult)) = k := toInt_of_le hk.2.2
      rw [List.take_succ_cons,List.foldl_cons,hk',Connection.addSize_eq (by omega),
        ih (m+k) i (by omega),total_cons,accepted,Nat.add_assoc]

end Complete

theorem calls_getElem? (fd : Int) (data : Buffer) (flags n : Nat) {rs : List SendResult} {i : Nat}
    {r : SendResult} (h : rs[i]? = some r) : (calls fd data flags n rs)[i]? =
      some (SysCall.send fd (data.data.drop (n+total (rs.take i))) flags (returned r)) := by
  induction rs generalizing n i with
  | nil => simp at h
  | cons r' rs ih =>
    cases i with
    | zero =>
      cases h
      rfl
    | succ i =>
      rw [List.getElem?_cons_succ] at h
      rw [calls,List.getElem?_cons_succ,ih (n+accepted r') h,List.take_succ_cons,total_cons,
        Nat.add_assoc]

theorem calls_length (fd : Int) (data : Buffer) (flags n : Nat) (rs : List SendResult) :
    (calls fd data flags n rs).length = rs.length := by
  induction rs generalizing n with
  | nil => rfl
  | cons r rs ih => rw [calls,List.length_cons,ih,List.length_cons]

theorem calls_taken (fd : Int) (data : Buffer) (flags n : Nat) (rs : List SendResult) :
    data.data.take n++(calls fd data flags n rs).flatMap SysCall.taken =
      data.data.take (n+total rs) := by
  induction rs generalizing n with
  | nil => simp [calls]
  | cons r rs ih =>
    have htaken : SysCall.taken (.send fd (data.data.drop n) flags (returned r)) =
        (data.data.drop n).take (accepted r) := by
      cases r <;> simp [SysCall.taken,returned,accepted]
    rw [calls,List.flatMap_cons,htaken,← List.append_assoc,← List.take_add,ih,total_cons,
      Nat.add_assoc]

end SendResult

namespace Connection
open Sys SendResult

/-- The calls that send data over fd, when ::send returns the results rs in turn. -/
structure SendsOnce (fd : Int) (data : Buffer) (flags : Nat) (rs : List SendResult)
    (calls : List SysCall) : Prop where
  length : calls.length = rs.length
  length_le : calls.length ≤ data.size
  /-- Each call is given what was not accepted before it. -/
  call : ∀ (i : Nat) (r : SendResult), rs[i]? = some r → calls[i]? =
    some (SysCall.send fd (data.data.drop (total (rs.take i))) flags (returned r))
  /-- The accepted bytes are a prefix of the data. -/
  taken : calls.flatMap SysCall.taken = data.data.take (total rs)
  bytesSent : ∀ i, bytesSent (rs.take i) = total (rs.take i) ∧ total (rs.take i) ≤ data.size

theorem complete_sendsOnce {fd : Int} {data : Buffer} {flags : Nat} {rs : List SendResult}
    (hrs : Complete data.size rs) : SendsOnce fd data flags rs (calls fd data flags 0 rs) := by
  have hsize : data.size < 2^64 := data.size_lt
  refine ⟨calls_length _ _ _ _ _,?_,?_,?_,?_⟩
  · rw [calls_length]
    exact hrs.length_le
  · intro i r hi
    rw [calls_getElem? _ _ _ _ hi,Nat.zero_add]
  · have htaken := calls_taken fd data flags 0 rs
    rw [Nat.zero_add] at htaken
    exact htaken
  · intro i
    have hfold := hrs.foldl_addSize 0 i (by omega)
    rw [Nat.zero_add] at hfold
    exact ⟨hfold,hrs.total_take_le i⟩

/-- `send` sends the data once and in order, until all of it is accepted or a call fails. -/
theorem send_sendsOnce {c : Connection} {data : Buffer} {rs : List SendResult} {rest : List Answer}
    {s : SysState} (flags : Nat) (hc : c.isConnected = true) (hd : data.size ≠ 0)
    (hrs : Allowed data.size rs) (hlen : data.size ≤ rs.length)
    (ha : s.answers = rs.map .send++rest) :
    ∃ used unused sendFlags calls ec s', rs = used++unused ∧
      (c.send data .clear flags).run s = (.ok ec, s') ∧
      s'.answers = unused.map .send++rest ∧ s'.calls = s.calls++calls ∧
      SendsOnce c.socket data sendFlags used calls ∧
      (ec.isSet = false ↔ total used = data.size) ∧
      (ec.isSet = true → ∃ e : Errno, ∃ ks : List Nat, used = ks.map .ok++[.error e] ∧
        ec = .assign e.1) := by
  obtain ⟨used,unused,rfl,hused⟩ := hrs.complete hlen
  rw [List.map_append,List.append_assoc] at ha
  obtain ⟨sendFlags,s',hr,hans,hcalls,-⟩ := send_complete .clear flags hc hd hused ha
  exact ⟨used,unused,sendFlags,_,_,s',rfl,hr,hans,hcalls,complete_sendsOnce hused,
    hused.finalCode_clear,hused.finalCode_set⟩

/-- Two of three bytes are accepted, then the connection breaks. -/
theorem send_sendsOnce_broken : ∃ ec s', (send { socket := 4 } (.ofList [7,8,9]) .clear 0).run
      ⟨⟨[4],0,[]⟩,[.send (.ok 2),.send (.error ⟨32,by decide⟩),.send (.ok 1)],[]⟩ = (.ok ec, s') ∧
    s'.calls.length ≤ 3 := by
  have hrs : Allowed (Buffer.ofList [7,8,9]).size [.ok 2,.error ⟨32,by decide⟩,.ok 1] :=
    .part (by decide) (.failed _ _)
  obtain ⟨used,unused,sendFlags,calls,ec,s',-,hr,-,hcalls,hsends,-⟩ :=
    send_sendsOnce (c := { socket := 4 }) (s := ⟨⟨[4],0,[]⟩,[.send (.ok 2),
      .send (.error ⟨32,by decide⟩),.send (.ok 1)],[]⟩) 0 rfl (by decide) hrs (by decide)
      (List.append_nil _).symm
  refine ⟨ec,s',hr,?_⟩
  rw [hcalls]
  exact hsends.length_le

end Connection
end Yonaa
