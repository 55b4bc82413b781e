import Yonaa.Overloads

/-! The exits of `connection::receive`: what it returns, what becomes of the object, and where
the error code comes from. -/
namespace Yonaa

/-- The kernel's answers in a call of `receive`: to ::recv, and to the calls of a disconnect. -/
structure Reply where
  recv : Except Errno (List Byte)
  shutdown : Except Errno Unit
  close : Except Errno Unit

namespace Reply

def answers (r : Reply) : List Answer := [.recv r.recv,.shutdown r.shutdown,.close r.close]

def Fits (r : Reply) (size : Nat) : Prop :=
  ∀ bytes, r.recv = .ok bytes → bytes.length ≤ size ∧ bytes.length ≤ maxTransfer

end Reply

namespace Connection
open Sys

theorem receive_failed {c : Connection} {size : Nat} {e : Errno} {rest : List Answer}
    {s : SysState} (ec : ErrorCode) (flags : Nat) (hc : c.isConnected = true) (hsize : size ≠ 0)
    (ha : s.answers = .recv (.error e)::rest) :
    ∃ s', (c.receive size ec flags).run s = (.ok ({}, c, .assign e.1), s') := by
  obtain ⟨kernel,answers,calls⟩ := s
  subst ha
  have hg : (!c.isConnected || size == 0) = false := by simp [hc,hsize]
  simp only [receive,hg,Bool.false_eq_true,if_false]
  exact ⟨_,rfl⟩

theorem receive_ended {c : Connection} {size : Nat} {shutdown close : Except Errno Unit}
    {rest : List Answer} {s : SysState} (ec : ErrorCode) (flags : Nat) (hc : c.isConnected = true)
    (hsize : size ≠ 0)
    (ha : s.answers = .recv (.ok [])::.shutdown shutdown::.close close::rest) :
    ∃ recvFlags s', (c.receive size ec flags).run s =
        (.ok ({}, {}, .assign (SocketOps.errnoAfter shutdown close s.kernel.errno)), s') ∧
      s'.kernel.fds = s.kernel.fds.filter (· ≠ c.socket) ∧
      s'.calls = s.calls++[.recv c.socket size recvFlags 0 [],.close c.socket] := by
  have hg : (!c.isConnected || size == 0) = false := by simp [hc,hsize]
  simp only [receive,hg,Bool.false_eq_true,if_false]
  generalize (if flags &&& ReceiveFlags.peek ≠ 0 then MSG_PEEK else 0) = recvFlags
  have hrecv := recv_answered c.socket recvFlags ha ⟨Nat.zero_le size,Nat.zero_le maxTransfer⟩
  rw [Prog.bind_ok hrecv,if_pos (by rfl),Prog.bind_ok (disconnect_answered hc rfl)]
  exact ⟨recvFlags,_,rfl,rfl,by simp⟩

/-- What the header promises of a call that was answered with r: the bytes that came, with the
object as it was, or an empty buffer and a closed object, whose descriptor was closed once. -/
def KeepsPromise (c : Connection) (r : Reply) (s : SysState) :
    Except Halt (Buffer × Connection × ErrorCode) × SysState → Prop
  | (.ok (data, c', _), s') =>
    (∃ bytes, r.recv = .ok bytes ∧ bytes ≠ [] ∧ data = .ofList bytes ∧ c' = c ∧
      s'.kernel.fds = s.kernel.fds ∧ ∃ call, s'.calls = s.calls++[call]) ∨
    (data.size = 0 ∧ c' = {} ∧ s'.kernel.fds = s.kernel.fds.filter (· ≠ c.socket) ∧
      ∃ calls, s'.calls = s.calls++calls ∧ calls.count (.close c.socket) = 1)
  | (.error _, _) => False

/-- The promise is kept exactly if something was asked for and ::recv did not fail. -/
theorem receive_keepsPromise_iff {c : Connection} {size flags : Nat} {ec : ErrorCode} {r : Reply}
    {rest : List Answer} {s : SysState} (hc : c.isConnected = true) (hfits : r.Fits size)
    (ha : s.answers = r.answers++rest) :
    KeepsPromise c r s ((c.receive size ec flags).run s) ↔ size ≠ 0 ∧ ∃ bytes, r.recv = .ok bytes := by
  have hopen : ∀ c' : Connection, c' = {} → c' ≠ c := by
    intro c' h he
    rw [← he,h] at hc
    exact absurd hc (by decide)
  by_cases hsize : size = 0
  · rw [receive_guard ec flags (Or.inr hsize) s]
    refine iff_of_false ?_ fun h => h.1 hsize
    intro h
    obtain ⟨bytes,hr,hne,-⟩ | ⟨-,hclosed,-⟩ := h
    · have hlen := (hfits bytes hr).1
      exact hne (List.length_eq_zero_iff.mp (by omega))
    · exact hopen c hclosed rfl
  · obtain ⟨recv,shutdown,close⟩ := r
    cases recv with
    | error e =>
      obtain ⟨s',hrun⟩ := receive_failed ec flags hc hsize ha
      rw [hrun]
      refine iff_of_false ?_ fun h => by obtain ⟨-,bytes,hr⟩ := h; cases hr
      intro h
      obtain ⟨bytes,hr,-⟩ | ⟨-,hclosed,-⟩ := h
      · cases hr
      · exact hopen c hclosed rfl
    | ok bytes =>
      refine iff_of_true ?_ ⟨hsize,bytes,rfl⟩
      by_cases hne : bytes = []
      · subst hne
        obtain ⟨recvFlags,s',hrun,hfds,hcalls⟩ := receive_ended ec flags hc hsize ha
        rw [hrun]
        exact Or.inr ⟨rfl,rfl,hfds,_,hcalls,by simp⟩
      · obtain ⟨hlen,hmax⟩ := hfits bytes rfl
        obtain ⟨recvFlags,s',hrun,hkernel,hcalls⟩ := receive_answered ec flags hc hne hlen hmax ha
        rw [hrun]
        exact Or.inl ⟨bytes,rfl,hne,rfl,rfl,by rw [hkernel],_,hcalls⟩

theorem receive_keepsPromise_bytes : KeepsPromise { socket := 4 } ⟨.ok [7,8],.ok (),.ok ()⟩
    ⟨⟨[4],0,[]⟩,[.recv (.ok [7,8]),.shutdown (.ok ()),.close (.ok ())],[]⟩
    ((receive { socket := 4 } 3 .clear 0).run
      ⟨⟨[4],0,[]⟩,[.recv (.ok [7,8]),.shutdown (.ok ()),.close (.ok ())],[]⟩) := by
  have hfits : Reply.Fits ⟨.ok [7,8],.ok (),.ok ()⟩ 3 := by
    intro bytes h
    cases h
    decide
  exact (receive_keepsPromise_iff rfl hfits (List.append_nil _).symm).mpr ⟨by decide,_,rfl⟩

/-- A connection that was reset stays open. -/
theorem receive_reset_open : ¬∀ (c : Connection) (size flags : Nat) (ec : ErrorCode) (r : Reply)
    (rest : List Answer) (s : SysState), c.isConnected = true → r.Fits size →
    s.answers = r.answers++rest → KeepsPromise c r s ((c.receive size ec flags).run s) := by
  intro h
  have hfits : Reply.Fits ⟨.error ⟨104,by decide⟩,.ok (),.ok ()⟩ 3 := by
    intro bytes h
    cases h
  have hkept := h { socket := 4 } 3 0 .clear ⟨.error ⟨104,by decide⟩,.ok (),.ok ()⟩ []
    ⟨⟨[4],0,[]⟩,[.recv (.error ⟨104,by decide⟩),.shutdown (.ok ()),.close (.ok ())],[]⟩ rfl hfits rfl
  obtain ⟨bytes,hr,-⟩ | ⟨-,hclosed,-⟩ := hkept
  · cases hr
  · exact absurd hclosed (by decide)

/-! The value of `errno` before the call. -/

def withErrno (s : SysState) (errno : Int) : SysState :=
  { s with kernel := { s.kernel with errno := errno } }

def closesOrderly : List Answer → Bool
  | .recv (.ok [])::.shutdown (.ok _)::.close (.ok _)::_ => true
  | _ => false

/-- What a caller of the throwing overload sees: the object, and the bytes or that it threw. -/
def caught : Except Halt (Connection × Except ErrorCode Buffer) × SysState →
    Except Halt (Connection × Option Buffer)
  | (.ok (c, .ok data), _) => .ok (c, some data)
  | (.ok (c, .error _), _) => .ok (c, none)
  | (.error h, _) => .error h

/-- Two calls from states that differ in `errno` only look the same to their callers, with the
overload that reports a code and with the one that throws. -/
structure SameTwice (c : Connection) (size flags : Nat) (ec : ErrorCode) (s : SysState)
    (m n : Int) : Prop where
  reported : ((c.receive size ec flags).run (withErrno s m)).1 =
    ((c.receive size ec flags).run (withErrno s n)).1
  thrown : caught ((c.receiveThrowing size flags).run (withErrno s m)) =
    caught ((c.receiveThrowing size flags).run (withErrno s n))

theorem ended_errno {c : Connection} (hc : c.isConnected = true) {rest : List Answer}
    (hs : closesOrderly (.recv (.ok [])::rest) = false) (fds : List Int) (setUps : List SetUp)
    (calls : List SysCall) (m n : Int) :
    ((c.disconnect >>= fun c' => errno >>= fun e =>
        pure (({} : Buffer),c',ErrorCode.assign e)).run ⟨⟨fds,m,setUps⟩,rest,calls⟩).1 =
      ((c.disconnect >>= fun c' => errno >>= fun e =>
        pure (({} : Buffer),c',ErrorCode.assign e)).run ⟨⟨fds,n,setUps⟩,rest,calls⟩).1 := by
  simp only [disconnect,hc,if_true]
  cases rest with
  | nil => rfl
  | cons a rest => cases a with
    | shutdown r =>
      cases rest with
      | nil => cases r <;> rfl
      | cons a rest => cases a with
        | close r' => cases r' with
          | error e => cases r <;> rfl
          | ok u => cases r with
            | error e => rfl
            | ok u' => cases hs
        | _ => cases r <;> rfl
    | _ => rfl

/-- Unless the peer closed orderly, the result does not depend on `errno`. -/
theorem receive_errno {c : Connection} {size : Nat} (flags : Nat) (ec : ErrorCode) {s : SysState}
    (m n : Int) (hc : c.isConnected = true) (hsize : size ≠ 0)
    (hs : closesOrderly s.answers = false) :
    ((c.receive size ec flags).run (withErrno s m)).1 =
      ((c.receive size ec flags).run (withErrno s n)).1 := by
  have hg : (!c.isConnected || size == 0) = false := by simp [hc,hsize]
  simp only [receive,hg,Bool.false_eq_true,if_false]
  generalize (if flags &&& ReceiveFlags.peek ≠ 0 then MSG_PEEK else 0) = recvFlags
  obtain ⟨kernel,answers,calls⟩ := s
  cases answers with
  | nil => rfl
  | cons a rest => cases a with
    | recv r => cases r with
      | error e => rfl
      | ok bytes =>
        by_cases hb : bytes.length ≤ size ∧ bytes.length ≤ maxTransfer
        · have hrecv : ∀ errno, (Sys.recv c.socket size recvFlags).run
              (withErrno ⟨kernel,.recv (.ok bytes)::rest,calls⟩ errno) = _ :=
            fun errno => recv_answered c.socket recvFlags rfl hb
          rw [Prog.bind_ok (hrecv m),Prog.bind_ok (hrecv n)]
          dsimp only
          by_cases hz : toInt (bytes.length : Int) = 0
          · have hnil : bytes = [] := by
              rw [toInt_of_le hb.2] at hz
              exact List.length_eq_zero_iff.mp (by omega)
            subst hnil
            rw [if_pos hz]
            exact ended_errno hc hs kernel.fds kernel.setUps _ m n
          · rw [if_neg hz]
            by_cases hneg : toInt (bytes.length : Int) = -1
            · rw [toInt_of_le hb.2] at hneg
              omega
            · rw [if_neg hneg]
              rfl
        · have hrecv : ∀ errno, (Sys.recv c.socket size recvFlags).run
              (withErrno ⟨kernel,.recv (.ok bytes)::rest,calls⟩ errno) = _ :=
            fun errno => recv_refused c.socket recvFlags rfl hb
          rw [Prog.bind_error (hrecv m),Prog.bind_error (hrecv n)]
    | _ => rfl

theorem receive_sameTwice_iff {c : Connection} {size : Nat} (flags : Nat) (ec : ErrorCode)
    (s : SysState) (m n : Int) (hc : c.isConnected = true) (hsize : size ≠ 0) :
    SameTwice c size flags ec s m n ↔ m = n ∨ closesOrderly s.answers = false := by
  have hcaught : ∀ s : SysState, caught ((c.receiveThrowing size flags).run s) =
      match ((c.receive size .clear flags).run s).1 with
      | .ok (data,c',ec) => .ok (c', if ec.isSet then none else some data)
      | .error h => .error h := by
    intro s
    unfold receiveThrowing
    cases hr : (c.receive size .clear flags).run s with
    | mk r s' => cases r with
      | error h => rw [Prog.bind_error hr]; rfl
      | ok x =>
        rw [Prog.bind_ok hr]
        obtain ⟨data,c',ec⟩ := x
        change caught (.ok (c',orThrow data ec),s') = _
        by_cases hec : ec.isSet = true
        · simp [orThrow,hec,caught]
        · simp [orThrow,hec,caught]
  by_cases hs : closesOrderly s.answers = false
  · refine iff_of_true ⟨receive_errno flags ec m n hc hsize hs,?_⟩ (Or.inr hs)
    rw [hcaught,hcaught,receive_errno flags .clear m n hc hsize hs]
  · constructor
    · intro h
      left
      have hclose : closesOrderly s.answers = true := by simpa using hs
      unfold closesOrderly at hclose
      split at hclose
      next ha =>
        obtain ⟨_,_,hm,-⟩ := receive_ended (s := withErrno s m) ec flags hc hsize ha
        obtain ⟨_,_,hn,-⟩ := receive_ended (s := withErrno s n) ec flags hc hsize ha
        have hsame := h.reported
        rw [hm,hn] at hsame
        simpa [SocketOps.errnoAfter,withErrno,ErrorCode.assign] using hsame
      next => cases hclose
    · intro h
      obtain rfl := h.resolve_right hs
      exact ⟨rfl,rfl⟩

theorem receive_sameTwice_reset : SameTwice { socket := 4 } 3 0 .clear
    ⟨⟨[4],0,[]⟩,[.recv (.error ⟨104,by decide⟩)],[]⟩ 0 2 :=
  (receive_sameTwice_iff 0 .clear _ 0 2 rfl (by decide)).mpr (Or.inr rfl)

/-- After a call that failed with 2, an orderly close is reported as that error. -/
theorem receive_stale_errno : ¬∀ (c : Connection) (size flags : Nat) (ec : ErrorCode) (s : SysState)
    (m n : Int), c.isConnected = true → size ≠ 0 → SameTwice c size flags ec s m n := by
  intro h
  have hsame := (h { socket := 4 } 3 0 .clear
    ⟨⟨[4],0,[]⟩,[.recv (.ok []),.shutdown (.ok ()),.close (.ok ())],[]⟩ 0 2 rfl (by decide)).reported
  have hcode : (0 : Int) = 2 := congrArg (fun
    | .ok (_,_,ec) => ec.value
    | .error _ => 0) hsame
  exact absurd hcode (by decide)

end Connection
end Yonaa
