import Yonaa.Buffer
import Yonaa.Prog

/-! The system calls as the library sees them. The kernel's answers are an input:
a list read from the front, so every theorem about all lists is about every
kernel outcome. A run ends where the list ends, which makes every prefix of a
run a run. An answer the kernel cannot give ends the run as well. -/
namespace Yonaa

/-- Why a run ends before its function returns. -/
inductive Halt where
  | cut         -- the environment has given no further answer
  | crash       -- an empty pointer was dereferenced
  | exit        -- `std::exit`
  | outOfFuel   -- the bound on the observed loop iterations is reached
deriving DecidableEq

/-- The error numbers a failing call leaves in `errno`. -/
abbrev Errno := {e : Int // 0 < e}

/-- `std::error_code` with the system category; 0 is "no error". -/
structure ErrorCode where
  value : Int := 0
deriving DecidableEq

namespace ErrorCode
def clear : ErrorCode := ⟨0⟩
def assign (value : Int) : ErrorCode := ⟨value⟩
def isSet (ec : ErrorCode) : Bool := ec.value != 0

@[simp] theorem isSet_clear : clear.isSet = false := rfl
theorem isSet_eq_false {ec : ErrorCode} : ec.isSet = false ↔ ec = clear := by
  cases ec
  simp [isSet,clear]
theorem isSet_errno (e : Errno) : (assign e.1).isSet = true := by
  have := e.2
  simp only [isSet,assign,bne_iff_ne]
  omega
end ErrorCode

structure PollFd where
  fd : Int
  events : Nat
  revents : Nat
deriving DecidableEq

/-- One answer of the kernel. -/
inductive Answer where
  | poll (result : Except Errno (List Nat))
  | accept (result : Except Errno Int) (addr : List Byte)
  | send (result : Except Errno Nat)
  | recv (result : Except Errno (List Byte))
  | shutdown (result : Except Errno Unit)
  | close (result : Except Errno Unit)
  | getname (result : Except Errno Unit) (addr : List Byte)
  | getsockopt (result : Except Errno Unit) (protocol : Int)
  | getaddrinfo (result : Option (List (Int × List Byte)))
  | socket (result : Except Errno Int)
  | setsockopt (result : Except Errno Unit)
  | connect (result : Except Errno Unit)
  | bind (result : Except Errno Unit)
  | listen (result : Except Errno Unit)

namespace Answer
def asPoll : Answer → Option (Except Errno (List Nat))
  | .poll r => some r
  | _ => none
def asAccept : Answer → Option (Except Errno Int × List Byte)
  | .accept r a => some (r, a)
  | _ => none
def asSend : Answer → Option (Except Errno Nat)
  | .send r => some r
  | _ => none
def asRecv : Answer → Option (Except Errno (List Byte))
  | .recv r => some r
  | _ => none
def asShutdown : Answer → Option (Except Errno Unit)
  | .shutdown r => some r
  | _ => none
def asClose : Answer → Option (Except Errno Unit)
  | .close r => some r
  | _ => none
def asGetname : Answer → Option (Except Errno Unit × List Byte)
  | .getname r a => some (r, a)
  | _ => none
def asGetsockopt : Answer → Option (Except Errno Unit × Int)
  | .getsockopt r p => some (r, p)
  | _ => none
def asGetaddrinfo : Answer → Option (Option (List (Int × List Byte)))
  | .getaddrinfo r => some r
  | _ => none
def asSocket : Answer → Option (Except Errno Int)
  | .socket r => some r
  | _ => none
def asSetsockopt : Answer → Option (Except Errno Unit)
  | .setsockopt r => some r
  | _ => none
def asConnect : Answer → Option (Except Errno Unit)
  | .connect r => some r
  | _ => none
def asBind : Answer → Option (Except Errno Unit)
  | .bind r => some r
  | _ => none
def asListen : Answer → Option (Except Errno Unit)
  | .listen r => some r
  | _ => none
end Answer

/-- The calls whose history the theorems speak about. -/
inductive SysCall where
  | poll (pfds : List PollFd) (result : Int)
  | accept (fd : Int) (result : Int)
  | send (fd : Int) (offered : List Byte) (flags : Nat) (result : Int)
  | recv (fd : Int) (size flags : Nat) (result : Int) (data : List Byte)
  | close (fd : Int)
deriving DecidableEq

def SysCall.isSend : SysCall → Prop
  | .send _ _ _ _ => True
  | _ => False

/-- The calls by which sockets are made, with what they return. -/
inductive SetUp where
  | socket (e : Endpoint) (result : Int)
  | setsockopt (fd : Int) (result : Int)
  | connect (fd : Int) (e : Endpoint) (result : Int)
  | bind (fd : Int) (e : Endpoint) (result : Int)
  | listen (fd : Int) (backlog : Nat) (result : Int)
deriving DecidableEq

structure Kernel where
  fds : List Int          -- the open descriptors
  errno : Int
  setUps : List SetUp     -- history
deriving DecidableEq

structure SysState where
  kernel : Kernel
  answers : List Answer
  calls : List SysCall

abbrev Sys := Prog Halt SysState

/-- Linux moves less than INT_MAX bytes in one call. -/
def maxTransfer : Nat := 2^31-1

/-- The conversion of a `ssize_t` to `int`: a value that does not fit wraps. -/
def toInt (n : Int) : Int :=
  if n ≤ 2147483647 ∧ -2147483648 ≤ n then n else Int.bmod n (2^32)

theorem toInt_of_le {n : Nat} (h : n ≤ maxTransfer) : toInt (n : Int) = n := by
  have h' : n ≤ 2^31-1 := h
  exact if_pos ⟨by omega,by omega⟩

theorem toInt_neg_one : toInt (-1) = -1 := rfl

namespace Sys

/-- Take the kernel's next answer, if it answers this kind of call. -/
def ask {α : Type} (pick : Answer → Option α) : Sys α where
  run s :=
    match s.answers with
    | [] => (.error .cut, s)
    | a::rest =>
      match pick a with
      | some x => (.ok x, { s with answers := rest })
      | none => (.error .cut, s)

def record (c : SysCall) : Sys Unit :=
  Prog.modify fun s => { s with calls := s.calls ++ [c] }

def setErrno (e : Errno) : Sys Unit :=
  Prog.modify fun s => { s with kernel := { s.kernel with errno := e.1 } }

def errno : Sys Int := do
  return (← Prog.get).kernel.errno

def openFd (fd : Int) : Sys Unit :=
  Prog.modify fun s => { s with kernel := { s.kernel with fds := fd :: s.kernel.fds } }

def closeFd (fd : Int) : Sys Unit :=
  Prog.modify fun s =>
    { s with kernel := { s.kernel with fds := s.kernel.fds.filter (· ≠ fd) } }

def status : Except Errno Unit → Sys Int
  | .ok () => pure 0
  | .error e => do
    setErrno e
    return -1

/-- A new descriptor is non-negative and not open. -/
def fresh (result : Except Errno Int) : Sys Int := do
  match result with
  | .error e =>
    setErrno e
    return -1
  | .ok fd =>
    if 0 ≤ fd ∧ fd ∉ (← Prog.get).kernel.fds then
      openFd fd
      return fd
    else
      Prog.stop .cut

/-- A failing ::poll leaves the `revents` fields as they were. -/
def poll (pfds : List PollFd) : Sys (List PollFd × Int) := do
  match ← ask Answer.asPoll with
  | .error e =>
    setErrno e
    record (.poll pfds (-1))
    return (pfds, -1)
  | .ok revents =>
    if revents.length = pfds.length then
      let pfds' := pfds.zipWith (fun p r => { p with revents := r }) revents
      let n : Int := (revents.filter (· ≠ 0)).length
      record (.poll pfds' n)
      return (pfds', n)
    else
      Prog.stop .cut

/-- ::accept; also returns the bytes left in the address argument. -/
def accept (fd : Int) : Sys (Int × List Byte) := do
  let (r, addr) ← ask Answer.asAccept
  let result ← fresh r
  record (.accept fd result)
  return (result, addr)

/-- ::send accepts at least one byte of a non-empty buffer, or fails. -/
def send (fd : Int) (offered : List Byte) (flags : Nat) : Sys Int := do
  match ← ask Answer.asSend with
  | .error e =>
    setErrno e
    record (.send fd offered flags (-1))
    return -1
  | .ok n =>
    if 1 ≤ n ∧ n ≤ offered.length ∧ n ≤ maxTransfer then
      record (.send fd offered flags n)
      return n
    else
      Prog.stop .cut

/-- ::recv returns the bytes it stored with their number; none at an orderly close. -/
def recv (fd : Int) (size flags : Nat) : Sys (Int × List Byte) := do
  match ← ask Answer.asRecv with
  | .error e =>
    setErrno e
    record (.recv fd size flags (-1) [])
    return (-1, [])
  | .ok bytes =>
    if bytes.length ≤ size ∧ bytes.length ≤ maxTransfer then
      record (.recv fd size flags bytes.length bytes)
      return (bytes.length, bytes)
    else
      Prog.stop .cut

def shutdown (_fd : Int) : Sys Int := do
  status (← ask Answer.asShutdown)

/-- Linux releases the descriptor whatever ::close returns. -/
def close (fd : Int) : Sys Int := do
  let r ← ask Answer.asClose
  closeFd fd
  record (.close fd)
  status r

/-- The storage is indeterminate after a failure. -/
def getname : Sys (List Byte) := do
  let (r, addr) ← ask Answer.asGetname
  let _ ← status r
  return addr

def getsockname (_fd : Int) : Sys (List Byte) := getname
def getpeername (_fd : Int) : Sys (List Byte) := getname

def getsockopt (_fd : Int) : Sys Int := do
  let (r, protocol) ← ask Answer.asGetsockopt
  let _ ← status r
  return protocol

/-- The addresses of the list ::getaddrinfo returns, each with its protocol. -/
def getaddrinfo (_name : Option String) (_service : String) (_flags : Nat) :
    Sys (Option (List (Int × List Byte))) :=
  ask Answer.asGetaddrinfo

/-- The call, entered in the history with its result. -/
def entered (call : Int → SetUp) (m : Sys Int) : Sys Int := do
  let result ← m
  Prog.modify fun s => { s with kernel.setUps := s.kernel.setUps ++ [call result] }
  return result

def socket (e : Endpoint) : Sys Int :=
  entered (.socket e) do fresh (← ask Answer.asSocket)

def setsockopt (fd : Int) : Sys Int :=
  entered (.setsockopt fd) do status (← ask Answer.asSetsockopt)

def connect (fd : Int) (e : Endpoint) : Sys Int :=
  entered (.connect fd e) do status (← ask Answer.asConnect)

def bind (fd : Int) (e : Endpoint) : Sys Int :=
  entered (.bind fd e) do status (← ask Answer.asBind)

def listen (fd : Int) (backlog : Nat) : Sys Int :=
  entered (.listen fd backlog) do status (← ask Answer.asListen)

/-! What the calls do to the descriptors and the history. -/

/-- Only `errno` changed and answers were taken. -/
structure Same (s s' : SysState) : Prop where
  fds : s'.kernel.fds = s.kernel.fds
  setUps : s'.kernel.setUps = s.kernel.setUps
  calls : s'.calls = s.calls
  answers : s'.answers <:+ s.answers

theorem Same.refl (s : SysState) : Same s s := ⟨rfl,rfl,rfl,List.suffix_refl _⟩

theorem Same.trans {s t u : SysState} (h : Same s t) (h' : Same t u) : Same s u :=
  ⟨h'.fds.trans h.fds,h'.setUps.trans h.setUps,h'.calls.trans h.calls,h'.answers.trans h.answers⟩

theorem ask_cases {α : Type} (pick : Answer → Option α) (s : SysState) :
    (∃ a rest x, s.answers = a::rest ∧ pick a = some x ∧
      (ask pick).run s = (.ok x, { s with answers := rest })) ∨
    (ask pick).run s = (.error .cut, s) := by
  cases ha : s.answers with
  | nil => exact Or.inr (by simp [ask,ha])
  | cons a rest =>
    cases hp : pick a with
    | none => exact Or.inr (by simp [ask,ha,hp])
    | some x => exact Or.inl ⟨a,rest,x,rfl,hp,by simp [ask,ha,hp]⟩

theorem same_rest {s : SysState} {a : Answer} {rest : List Answer}
    (h : s.answers = a::rest) : Same s { s with answers := rest } :=
  ⟨rfl,rfl,rfl,by rw [h]; exact List.suffix_cons a rest⟩

theorem status_ok (r : Except Errno Unit) (s : SysState) :
    ∃ v s', (status r).run s = (.ok v, s') ∧ Same s s' := by
  cases r with
  | ok _ => exact ⟨0,s,rfl,Same.refl s⟩
  | error e => exact ⟨-1,_,rfl,rfl,rfl,rfl,List.suffix_refl _⟩

theorem fresh_new {fd : Int} {s : SysState} (h : 0 ≤ fd ∧ fd ∉ s.kernel.fds) :
    (fresh (.ok fd)).run s =
      (.ok fd, { s with kernel := { s.kernel with fds := fd::s.kernel.fds } }) := by
  simp only [fresh,Prog.run_get_bind,if_pos h]
  rfl

theorem fresh_refused {fd : Int} {s : SysState} (h : ¬(0 ≤ fd ∧ fd ∉ s.kernel.fds)) :
    (fresh (.ok fd)).run s = (.error .cut, s) := by
  simp only [fresh,Prog.run_get_bind,if_neg h]
  rfl

theorem ask_status_cases (pick : Answer → Option (Except Errno Unit)) (s : SysState) :
    (∃ v s', (ask pick >>= status).run s = (.ok v, s') ∧ Same s s') ∨
    (ask pick >>= status).run s = (.error .cut, s) := by
  obtain ⟨a,rest,r,ha,-,h⟩ | h := ask_cases pick s
  · obtain ⟨v,s',hv,hs⟩ := status_ok r { s with answers := rest }
    exact Or.inl ⟨v,s',by rw [Prog.bind_ok h,hv],(same_rest ha).trans hs⟩
  · exact Or.inr (Prog.bind_error h)

theorem shutdown_cases (fd : Int) (s : SysState) :
    (∃ v s', (shutdown fd).run s = (.ok v, s') ∧ Same s s') ∨ (shutdown fd).run s = (.error .cut, s) :=
  ask_status_cases _ s

theorem close_cases (fd : Int) (s : SysState) :
    (∃ v s', (close fd).run s = (.ok v, s') ∧ s'.kernel.fds = s.kernel.fds.filter (· ≠ fd) ∧
      s'.calls = s.calls++[.close fd] ∧ s'.answers <:+ s.answers) ∨
    (close fd).run s = (.error .cut, s) := by
  unfold close
  obtain ⟨a,rest,r,ha,-,h⟩ | h := ask_cases Answer.asClose s
  · left
    rw [Prog.bind_ok h]
    obtain ⟨v,s',hv,hs⟩ := status_ok r { s with
      answers := rest
      kernel := { s.kernel with fds := s.kernel.fds.filter (· ≠ fd) }
      calls := s.calls++[.close fd] }
    exact ⟨v,s',hv,hs.fds,hs.calls,hs.answers.trans (by rw [ha]; exact List.suffix_cons a rest)⟩
  · exact Or.inr (Prog.bind_error h)

theorem getname_cases (s : SysState) :
    (∃ v s', getname.run s = (.ok v, s') ∧ Same s s') ∨ getname.run s = (.error .cut, s) := by
  unfold getname
  obtain ⟨a,rest,⟨r,addr⟩,ha,-,h⟩ | h :=
    ask_cases Answer.asGetname s
  · left
    obtain ⟨v,s',hv,hs⟩ := status_ok r { s with answers := rest }
    exact ⟨addr,s',by rw [Prog.bind_ok h]; exact Prog.bind_ok hv,(same_rest ha).trans hs⟩
  · exact Or.inr (Prog.bind_error h)

theorem getsockopt_cases (fd : Int) (s : SysState) :
    (∃ v s', (getsockopt fd).run s = (.ok v, s') ∧ Same s s') ∨
    (getsockopt fd).run s = (.error .cut, s) := by
  unfold getsockopt
  obtain ⟨a,rest,⟨r,p⟩,ha,-,h⟩ | h :=
    ask_cases Answer.asGetsockopt s
  · left
    obtain ⟨v,s',hv,hs⟩ := status_ok r { s with answers := rest }
    exact ⟨p,s',by rw [Prog.bind_ok h]; exact Prog.bind_ok hv,(same_rest ha).trans hs⟩
  · exact Or.inr (Prog.bind_error h)

theorem send_cases (fd : Int) (offered : List Byte) (flags : Nat) (s : SysState) :
    (∃ k : Nat, ∃ s', (send fd offered flags).run s = (.ok (k : Int), s') ∧ 1 ≤ k ∧
      k ≤ offered.length ∧ k ≤ maxTransfer ∧ s'.kernel = s.kernel ∧
      s'.calls = s.calls++[.send fd offered flags k] ∧ s'.answers <:+ s.answers) ∨
    (∃ e : Errno, ∃ s', (send fd offered flags).run s = (.ok (-1), s') ∧
      s'.kernel = { s.kernel with errno := e.1 } ∧
      s'.calls = s.calls++[.send fd offered flags (-1)] ∧ s'.answers <:+ s.answers) ∨
    (∃ s', (send fd offered flags).run s = (.error .cut, s') ∧ Same s s') := by
  unfold send
  obtain ⟨a,rest,r,ha,-,h⟩ | h := ask_cases Answer.asSend s
  · rw [Prog.bind_ok h]
    have hr : rest <:+ s.answers := by rw [ha]; exact List.suffix_cons a rest
    cases r with
    | error e => exact Or.inr (Or.inl ⟨e,_,rfl,rfl,rfl,hr⟩)
    | ok k =>
      by_cases hk : 1 ≤ k ∧ k ≤ offered.length ∧ k ≤ maxTransfer
      · refine Or.inl ⟨k,{ s with
          answers := rest
          calls := s.calls++[.send fd offered flags k] },?_,hk.1,hk.2.1,hk.2.2,rfl,rfl,hr⟩
        simp only [if_pos hk]
        rfl
      · refine Or.inr (Or.inr ⟨{ s with answers := rest },?_,same_rest ha⟩)
        simp only [if_neg hk]
        rfl
  · exact Or.inr (Or.inr ⟨s,Prog.bind_error h,Same.refl s⟩)

theorem recv_cases (fd : Int) (size flags : Nat) (s : SysState) :
    (∃ bytes s', (recv fd size flags).run s = (.ok ((bytes.length : Int), bytes), s') ∧
      bytes.length ≤ size ∧ bytes.length ≤ maxTransfer ∧ s'.kernel = s.kernel ∧
      s'.calls = s.calls++[.recv fd size flags bytes.length bytes] ∧
      s'.answers <:+ s.answers) ∨
    (∃ e : Errno, ∃ s', (recv fd size flags).run s = (.ok (-1, []), s') ∧
      s'.kernel = { s.kernel with errno := e.1 } ∧
      s'.calls = s.calls++[.recv fd size flags (-1) []] ∧ s'.answers <:+ s.answers) ∨
    (∃ s', (recv fd size flags).run s = (.error .cut, s') ∧ Same s s') := by
  unfold recv
  obtain ⟨a,rest,r,ha,-,h⟩ | h := ask_cases Answer.asRecv s
  · rw [Prog.bind_ok h]
    have hr : rest <:+ s.answers := by rw [ha]; exact List.suffix_cons a rest
    cases r with
    | error e => exact Or.inr (Or.inl ⟨e,_,rfl,rfl,rfl,hr⟩)
    | ok bytes =>
      by_cases hb : bytes.length ≤ size ∧ bytes.length ≤ maxTransfer
      · refine Or.inl ⟨bytes,{ s with
          answers := rest
          calls := s.calls++[.recv fd size flags bytes.length bytes] },?_,hb.1,hb.2,rfl,rfl,hr⟩
        simp only [if_pos hb]
        rfl
      · refine Or.inr (Or.inr ⟨{ s with answers := rest },?_,same_rest ha⟩)
        simp only [if_neg hb]
        rfl
  · exact Or.inr (Or.inr ⟨s,Prog.bind_error h,Same.refl s⟩)

theorem send_answered (fd : Int) (flags : Nat) (offered : List Byte) {k : Nat}
    {rest : List Answer} {s : SysState} (ha : s.answers = .send (.ok k)::rest)
    (hk : 1 ≤ k ∧ k ≤ offered.length ∧ k ≤ maxTransfer) :
    (send fd offered flags).run s =
      (.ok (k : Int), ⟨s.kernel,rest,s.calls++[.send fd offered flags k]⟩) := by
  obtain ⟨kernel,answers,calls⟩ := s
  subst ha
  have hrun : (send fd offered flags).run ⟨kernel,.send (.ok k)::rest,calls⟩ =
      (if 1 ≤ k ∧ k ≤ offered.length ∧ k ≤ maxTransfer then
        record (.send fd offered flags k) >>= fun _ => pure (k : Int)
      else Prog.stop .cut).run ⟨kernel,rest,calls⟩ := rfl
  rw [hrun,if_pos hk]
  rfl

theorem send_refused (fd : Int) (flags : Nat) (offered : List Byte) {k : Nat}
    {rest : List Answer} {s : SysState} (ha : s.answers = .send (.ok k)::rest)
    (hk : ¬(1 ≤ k ∧ k ≤ offered.length ∧ k ≤ maxTransfer)) :
    (send fd offered flags).run s = (.error .cut, ⟨s.kernel,rest,s.calls⟩) := by
  obtain ⟨kernel,answers,calls⟩ := s
  subst ha
  have hrun : (send fd offered flags).run ⟨kernel,.send (.ok k)::rest,calls⟩ =
      (if 1 ≤ k ∧ k ≤ offered.length ∧ k ≤ maxTransfer then
        record (.send fd offered flags k) >>= fun _ => pure (k : Int)
      else Prog.stop .cut).run ⟨kernel,rest,calls⟩ := rfl
  rw [hrun,if_neg hk]
  rfl

theorem send_failed (fd : Int) (flags : Nat) (offered : List Byte) {e : Errno} {rest : List Answer}
    {s : SysState} (ha : s.answers = .send (.error e)::rest) :
    (send fd offered flags).run s = (.ok (-1), ⟨{ s.kernel with errno := e.1 },rest,
      s.calls++[.send fd offered flags (-1)]⟩) := by
  obtain ⟨kernel,answers,calls⟩ := s
  subst ha
  rfl

theorem recv_answered (fd : Int) (flags : Nat) {size : Nat} {bytes : List Byte} {rest : List Answer}
    {s : SysState} (ha : s.answers = .recv (.ok bytes)::rest)
    (hb : bytes.length ≤ size ∧ bytes.length ≤ maxTransfer) :
    (recv fd size flags).run s = (.ok ((bytes.length : Int), bytes),
      ⟨s.kernel,rest,s.calls++[.recv fd size flags bytes.length bytes]⟩) := by
  obtain ⟨kernel,answers,calls⟩ := s
  subst ha
  have hrun : (recv fd size flags).run ⟨kernel,.recv (.ok bytes)::rest,calls⟩ =
      (if bytes.length ≤ size ∧ bytes.length ≤ maxTransfer then
        record (.recv fd size flags bytes.length bytes) >>= fun _ =>
          pure ((bytes.length : Int), bytes)
      else Prog.stop .cut).run ⟨kernel,rest,calls⟩ := rfl
  rw [hrun,if_pos hb]
  rfl

theorem recv_refused (fd : Int) (flags : Nat) {size : Nat} {bytes : List Byte} {rest : List Answer}
    {s : SysState} (ha : s.answers = .recv (.ok bytes)::rest)
    (hb : ¬(bytes.length ≤ size ∧ bytes.length ≤ maxTransfer)) :
    (recv fd size flags).run s = (.error .cut, ⟨s.kernel,rest,s.calls⟩) := by
  obtain ⟨kernel,answers,calls⟩ := s
  subst ha
  have hrun : (recv fd size flags).run ⟨kernel,.recv (.ok bytes)::rest,calls⟩ =
      (if bytes.length ≤ size ∧ bytes.length ≤ maxTransfer then
        record (.recv fd size flags bytes.length bytes) >>= fun _ =>
          pure ((bytes.length : Int), bytes)
      else Prog.stop .cut).run ⟨kernel,rest,calls⟩ := rfl
  rw [hrun,if_neg hb]
  rfl

theorem accept_cases (fd : Int) (s : SysState) :
    (∃ new addr rest s', (accept fd).run s = (.ok (new, addr), s') ∧ 0 ≤ new ∧
      new ∉ s.kernel.fds ∧ s'.kernel = { s.kernel with fds := new::s.kernel.fds } ∧
      s'.calls = s.calls++[.accept fd new] ∧
      s.answers = .accept (.ok new) addr::rest ∧ s'.answers = rest) ∨
    (∃ e : Errno, ∃ addr s', (accept fd).run s = (.ok (-1, addr), s') ∧
      s'.kernel = { s.kernel with errno := e.1 } ∧
      s'.calls = s.calls++[.accept fd (-1)] ∧ s'.answers <:+ s.answers) ∨
    (∃ s', (accept fd).run s = (.error .cut, s') ∧ Same s s') := by
  unfold accept
  obtain ⟨a,rest,⟨r,addr⟩,ha,hp,h⟩ | h := ask_cases Answer.asAccept s
  · rw [Prog.bind_ok h]
    have hr : rest <:+ s.answers := by rw [ha]; exact List.suffix_cons a rest
    cases r with
    | error e => exact Or.inr (Or.inl ⟨e,addr,_,rfl,rfl,rfl,hr⟩)
    | ok new =>
      by_cases hn : 0 ≤ new ∧ new ∉ s.kernel.fds
      · have hopen := fresh_new (s := { s with answers := rest }) hn
        refine Or.inl ⟨new,addr,rest,_,Prog.bind_ok hopen,hn.1,hn.2,rfl,rfl,?_,rfl⟩
        rw [ha]
        cases a <;> simp_all [Answer.asAccept]
      · have hcut := fresh_refused (s := { s with answers := rest }) hn
        exact Or.inr (Or.inr ⟨_,Prog.bind_error hcut,same_rest ha⟩)
  · exact Or.inr (Or.inr ⟨s,Prog.bind_error h,Same.refl s⟩)

/-- The entries after a ::poll that returned these events. -/
def polled (pfds : List PollFd) (revents : List Nat) : List PollFd :=
  pfds.zipWith (fun p r => { p with revents := r }) revents

theorem polled_fds {pfds : List PollFd} {revents : List Nat}
    (hl : revents.length = pfds.length) : (polled pfds revents).map (·.fd) = pfds.map (·.fd) := by
  apply List.ext_getElem
  · simp [polled,hl]
  · intro i h1 h2
    simp [polled]

theorem polled_at {pfds : List PollFd} {revents : List Nat} (hl : revents.length = pfds.length)
    {i : Nat} {p : PollFd} (hi : pfds[i]? = some p) :
    (polled pfds revents)[i]? = some { p with revents := revents.getD i 0 } := by
  have hlt : i < revents.length := by
    rw [hl]
    exact (List.getElem?_eq_some_iff.mp hi).1
  simp [polled,List.getElem?_zipWith,hi,List.getElem?_eq_getElem hlt]

theorem mem_polled {pfds : List PollFd} {revents : List Nat} {p : PollFd}
    (h : p ∈ polled pfds revents) : ∃ q ∈ pfds, q.fd = p.fd ∧ q.events = p.events := by
  obtain ⟨i,hi,rfl⟩ := List.mem_iff_getElem.mp h
  have hlt : i < pfds.length := by
    simp only [polled,List.length_zipWith] at hi
    omega
  exact ⟨pfds[i],List.getElem_mem hlt,by simp [polled],by simp [polled]⟩

theorem poll_answered {pfds : List PollFd} {revents : List Nat} {rest : List Answer}
    {s : SysState} (ha : s.answers = .poll (.ok revents)::rest)
    (hl : revents.length = pfds.length) : (poll pfds).run s =
      (.ok (polled pfds revents, ((revents.filter (· ≠ 0)).length : Int)), ⟨s.kernel,rest,
        s.calls++[.poll (polled pfds revents) ((revents.filter (· ≠ 0)).length : Nat)]⟩) := by
  obtain ⟨kernel,answers,calls⟩ := s
  subst ha
  have hrun : (poll pfds).run ⟨kernel,.poll (.ok revents)::rest,calls⟩ =
      (if revents.length = pfds.length then
        record (.poll (polled pfds revents) ((revents.filter (· ≠ 0)).length : Nat)) >>=
          fun _ => pure (polled pfds revents, ((revents.filter (· ≠ 0)).length : Int))
      else Prog.stop .cut).run ⟨kernel,rest,calls⟩ := rfl
  rw [hrun,if_pos hl]
  rfl

theorem poll_refused {pfds : List PollFd} {revents : List Nat} {rest : List Answer}
    {s : SysState} (ha : s.answers = .poll (.ok revents)::rest)
    (hl : revents.length ≠ pfds.length) :
    (poll pfds).run s = (.error .cut, ⟨s.kernel,rest,s.calls⟩) := by
  obtain ⟨kernel,answers,calls⟩ := s
  subst ha
  have hrun : (poll pfds).run ⟨kernel,.poll (.ok revents)::rest,calls⟩ =
      (if revents.length = pfds.length then
        record (.poll (polled pfds revents) ((revents.filter (· ≠ 0)).length : Nat)) >>=
          fun _ => pure (polled pfds revents, ((revents.filter (· ≠ 0)).length : Int))
      else Prog.stop .cut).run ⟨kernel,rest,calls⟩ := rfl
  rw [hrun,if_neg hl]
  rfl

/-- Every outcome of ::poll leaves the descriptors of its entries as they were. -/
theorem poll_cases (pfds : List PollFd) (s : SysState) :
    (∃ pfds' n s', (poll pfds).run s = (.ok (pfds', n), s') ∧
      pfds'.map (·.fd) = pfds.map (·.fd) ∧ s'.kernel.fds = s.kernel.fds ∧
      s'.calls = s.calls++[.poll pfds' n] ∧ s'.answers <:+ s.answers) ∨
    (∃ s', (poll pfds).run s = (.error .cut, s') ∧ Same s s') := by
  unfold poll
  obtain ⟨a,rest,r,ha,-,h⟩ | h := ask_cases Answer.asPoll s
  · rw [Prog.bind_ok h]
    have hr : rest <:+ s.answers := by rw [ha]; exact List.suffix_cons a rest
    cases r with
    | error e => exact Or.inl ⟨pfds,-1,_,rfl,rfl,rfl,rfl,hr⟩
    | ok revents =>
      by_cases hl : revents.length = pfds.length
      · simp only [if_pos hl]
        exact Or.inl ⟨_,_,_,rfl,polled_fds hl,rfl,rfl,hr⟩
      · simp only [if_neg hl]
        exact Or.inr ⟨_,rfl,same_rest ha⟩
  · exact Or.inr ⟨s,Prog.bind_error h,Same.refl s⟩

/-! Calls that leave no trace in the history. -/

/-- The program records no call, and only a missing answer stops it. -/
def Silent {α : Type} (m : Sys α) : Prop :=
  ∀ s, (m.run s).2.calls = s.calls ∧ ∀ e, (m.run s).1 = .error e → e = .cut

namespace Silent
variable {α β : Type}

theorem pure (a : α) : Silent (Pure.pure a : Sys α) := fun _ => ⟨rfl,fun _ h => nomatch h⟩

theorem stop : Silent (Prog.stop .cut : Sys α) := fun _ => ⟨rfl,fun _ h => by cases h; rfl⟩

theorem bind {m : Sys α} {k : α → Sys β} (hm : Silent m) (hk : ∀ a, Silent (k a)) :
    Silent (m >>= k) := by
  intro s
  obtain ⟨hc,he⟩ := hm s
  cases h : m.run s with
  | mk r s' =>
    rw [h] at hc he
    cases r with
    | ok a =>
      rw [Prog.bind_ok h]
      exact ⟨(hk a s').1.trans hc,(hk a s').2⟩
    | error e =>
      rw [Prog.bind_error h]
      exact ⟨hc,fun e' h' => by cases h'; exact he e rfl⟩

theorem ite {c : Prop} [Decidable c] {m n : Sys α} (hm : Silent m) (hn : Silent n) :
    Silent (if c then m else n) := by
  by_cases hc : c
  · rw [if_pos hc]
    exact hm
  · rw [if_neg hc]
    exact hn

theorem get : Silent (Prog.get : Sys SysState) := fun _ => ⟨rfl,fun _ h => nomatch h⟩

theorem setErrno (e : Errno) : Silent (setErrno e) := fun _ => ⟨rfl,fun _ h => nomatch h⟩

theorem openFd (fd : Int) : Silent (openFd fd) := fun _ => ⟨rfl,fun _ h => nomatch h⟩

theorem ask (pick : Answer → Option α) : Silent (ask pick) := by
  intro s
  obtain ⟨a,rest,x,-,-,h⟩ | h := ask_cases pick s
  · rw [h]
    exact ⟨rfl,fun _ h => nomatch h⟩
  · rw [h]
    exact ⟨rfl,fun _ h => by cases h; rfl⟩

theorem status (r : Except Errno Unit) : Silent (status r) := by
  cases r with
  | ok _ => exact pure 0
  | error e => exact (setErrno e).bind fun _ => pure (-1)

theorem fresh (r : Except Errno Int) : Silent (fresh r) := by
  cases r with
  | error e => exact (setErrno e).bind fun _ => pure (-1)
  | ok fd => exact get.bind fun _ => ite ((openFd fd).bind fun _ => pure fd) stop

theorem entered (call : Int → SetUp) {m : Sys Int} (h : Silent m) : Silent (entered call m) :=
  h.bind fun result => .bind (fun _ => ⟨rfl,fun _ h => nomatch h⟩) fun _ => pure result

theorem getname : Silent getname :=
  (ask _).bind fun x => (status x.1).bind fun _ => pure x.2

theorem getsockopt (fd : Int) : Silent (getsockopt fd) :=
  (ask _).bind fun x => (status x.1).bind fun _ => pure x.2

end Silent

theorem errno_apply (s : SysState) : errno.run s = (.ok s.kernel.errno, s) := rfl

end Sys
end Yonaa
