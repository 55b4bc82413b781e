import Yonaa.System

/-! socket_ops.cpp, poll.cpp, getaddrinfo.cpp and resolve.cpp. -/
namespace Yonaa

namespace SocketOps

/-- Both queries ignore their errors. -/
def getEndpoint (fd : Int) (localSocket : Bool) : Sys Endpoint := do
  let ss ← if localSocket then Sys.getsockname fd else Sys.getpeername fd
  let protocol ← Sys.getsockopt fd
  return Endpoint.fromNativeAddress protocol ss

def getLocalEndpoint (fd : Int) : Sys Endpoint := getEndpoint fd true
def getRemoteEndpoint (fd : Int) : Sys Endpoint := getEndpoint fd false

/-- A descriptor whose ::connect fails is left open. -/
def createConnectedSocket : List Endpoint → Sys Int
  | [] => return 0
  | e::es => do
    let fd ← Sys.socket e
    if fd = -1 then createConnectedSocket es
    else
      let connectResult ← Sys.connect fd e
      if connectResult = -1 then createConnectedSocket es
      else return fd

/-- A descriptor whose set-up fails is left open. -/
def createListeningSocket (backlogSize : Nat) (reuseAddr : Bool) : List Endpoint → Sys Int
  | [] => return 0
  | e::es => do
    let fd ← Sys.socket e
    if fd = -1 then createListeningSocket backlogSize reuseAddr es
    else
      let ssoResult ← if reuseAddr then Sys.setsockopt fd else pure 0
      if ssoResult = -1 then createListeningSocket backlogSize reuseAddr es
      else
        let bindResult ← Sys.bind fd e
        if bindResult = -1 then createListeningSocket backlogSize reuseAddr es
        else
          let listenResult ← Sys.listen fd backlogSize
          if listenResult = -1 then createListeningSocket backlogSize reuseAddr es
          else return fd

def closeSocket (fd : Int) : Sys Unit := do
  let _ ← Sys.shutdown fd
  let _ ← Sys.close fd

open Sys

theorem getEndpoint_eq (fd : Int) (localSocket : Bool) : getEndpoint fd localSocket = do
    let ss ← getname
    let protocol ← getsockopt fd
    return Endpoint.fromNativeAddress protocol ss := by
  cases localSocket <;> rfl

theorem getEndpoint_cases (fd : Int) (localSocket : Bool) (s : SysState) :
    (∃ e s', (getEndpoint fd localSocket).run s = (.ok e, s') ∧ Same s s') ∨
    (∃ s', (getEndpoint fd localSocket).run s = (.error .cut, s') ∧ Same s s') := by
  rw [getEndpoint_eq]
  obtain ⟨ss,s',h,hs⟩ | h := getname_cases s
  · rw [Prog.bind_ok h]
    obtain ⟨p,s'',h',hs'⟩ | h' := getsockopt_cases fd s'
    · exact Or.inl ⟨_,s'',Prog.bind_ok h',hs.trans hs'⟩
    · exact Or.inr ⟨s',Prog.bind_error h',hs⟩
  · exact Or.inr ⟨s,Prog.bind_error h,Same.refl s⟩

theorem getEndpoint_same {fd : Int} {localSocket : Bool} {e : Endpoint} {s s' : SysState}
    (h : (getEndpoint fd localSocket).run s = (.ok e, s')) : Same s s' := by
  obtain ⟨e',s₁,hr,hs⟩ | ⟨s₁,hr,hs⟩ := getEndpoint_cases fd localSocket s
  · rw [hr] at h
    cases h
    exact hs
  · rw [hr] at h
    cases h

theorem closeSocket_cases (fd : Int) (s : SysState) :
    (∃ s', (closeSocket fd).run s = (.ok (), s') ∧
      s'.kernel.fds = s.kernel.fds.filter (· ≠ fd) ∧
      s'.calls = s.calls++[.close fd] ∧ s'.answers <:+ s.answers) ∨
    (∃ s', (closeSocket fd).run s = (.error .cut, s') ∧ Same s s') := by
  unfold closeSocket
  obtain ⟨v,s',h,hs⟩ | h := shutdown_cases fd s
  · rw [Prog.bind_ok h]
    obtain ⟨v',s'',h',hf,hc,ha⟩ | h' := close_cases fd s'
    · exact Or.inl ⟨s'',Prog.bind_ok h',by rw [hf,hs.fds],by rw [hc,hs.calls],
        ha.trans hs.answers⟩
    · exact Or.inr ⟨s',Prog.bind_error h',hs⟩
  · exact Or.inr ⟨s,Prog.bind_error h,Same.refl s⟩

/-- `errno` after ::shutdown and ::close. -/
def errnoAfter (shutdown close : Except Errno Unit) (errno : Int) : Int :=
  match close, shutdown with
  | .error e, _ => e.1
  | .ok _, .error e => e.1
  | .ok _, .ok _ => errno

theorem closeSocket_answered {fd : Int} {shutdown close : Except Errno Unit} {rest : List Answer}
    {s : SysState} (ha : s.answers = .shutdown shutdown::.close close::rest) :
    (closeSocket fd).run s = (.ok (), ⟨⟨s.kernel.fds.filter (· ≠ fd),
      errnoAfter shutdown close s.kernel.errno,s.kernel.setUps⟩,rest,s.calls++[.close fd]⟩) := by
  obtain ⟨kernel,answers,calls⟩ := s
  subst ha
  cases shutdown with
  | ok u => cases close with
    | ok u' => rfl
    | error e => rfl
  | error e => cases close with
    | ok u => rfl
    | error e' => rfl

theorem getEndpoint_silent (fd : Int) (localSocket : Bool) :
    Silent (getEndpoint fd localSocket) := by
  cases localSocket <;>
    exact Silent.getname.bind fun ss => (Silent.getsockopt fd).bind fun p => .pure _

theorem createConnectedSocket_silent (es : List Endpoint) :
    Silent (createConnectedSocket es) := by
  induction es with
  | nil => exact .pure 0
  | cons e es ih =>
    refine .bind (.entered _ ((Silent.ask _).bind Silent.fresh)) fun fd => .ite ih ?_
    exact .bind (.entered _ ((Silent.ask _).bind Silent.status)) fun connectResult =>
      .ite ih (.pure fd)

theorem createListeningSocket_silent (backlogSize : Nat) (reuseAddr : Bool)
    (es : List Endpoint) : Silent (createListeningSocket backlogSize reuseAddr es) := by
  have hstatus : ∀ call pick, Silent (entered call (ask pick >>= status)) := fun call pick =>
    .entered call ((Silent.ask pick).bind Silent.status)
  induction es with
  | nil => exact .pure 0
  | cons e es ih =>
    unfold createListeningSocket
    refine .bind (.entered _ ((Silent.ask _).bind Silent.fresh)) fun fd => .ite ih ?_
    have hrest : ∀ ssoResult : Int, Silent (do
        if ssoResult = -1 then createListeningSocket backlogSize reuseAddr es
        else
          let bindResult ← Sys.bind fd e
          if bindResult = -1 then createListeningSocket backlogSize reuseAddr es
          else
            let listenResult ← Sys.listen fd backlogSize
            if listenResult = -1 then createListeningSocket backlogSize reuseAddr es
            else return fd) := by
      intro ssoResult
      refine .ite ih (.bind (hstatus _ _) fun bindResult => .ite ih ?_)
      exact .bind (hstatus _ _) fun listenResult => .ite ih (.pure fd)
    cases reuseAddr with
    | true => exact .bind (hstatus _ _) hrest
    | false => exact .bind (.pure 0) hrest

end SocketOps

/-! `socket_status` and its masks. -/
namespace SocketStatus
def none : Nat := 0x00
def error : Nat := 0x01
def hungUp : Nat := 0x02
def readable : Nat := 0x04
def writable : Nat := 0x08
end SocketStatus

def POLLIN : Nat := 0x001
def POLLOUT : Nat := 0x004
def POLLERR : Nat := 0x008
def POLLHUP : Nat := 0x010

def ssmFromRevents (revents : Nat) : Nat :=
  (if revents &&& POLLIN ≠ 0 then SocketStatus.readable else SocketStatus.none) |||
  (if revents &&& POLLOUT ≠ 0 then SocketStatus.writable else SocketStatus.none) |||
  (if revents &&& POLLERR ≠ 0 then SocketStatus.error else SocketStatus.none) |||
  (if revents &&& POLLHUP ≠ 0 then SocketStatus.hungUp else SocketStatus.none)

theorem ssmFromRevents_readable (revents : Nat) :
    (ssmFromRevents revents &&& SocketStatus.readable != 0) = (revents &&& POLLIN != 0) := by
  unfold ssmFromRevents
  by_cases hin : revents &&& POLLIN = 0
  all_goals
    by_cases hout : revents &&& POLLOUT = 0
    all_goals
      by_cases herr : revents &&& POLLERR = 0
      all_goals
        by_cases hhup : revents &&& POLLHUP = 0
        all_goals simp [hin,hout,herr,hhup,SocketStatus.readable,SocketStatus.writable,
          SocketStatus.error,SocketStatus.hungUp,SocketStatus.none]

def pollSocket (fd : Int) : Sys Nat := do
  let (pfds, numEvents) ← Sys.poll [⟨fd, POLLIN ||| POLLOUT, 0⟩]
  match pfds with
  | pfd::_ => return if numEvents > 0 then ssmFromRevents pfd.revents else SocketStatus.none
  | [] => return SocketStatus.none

structure SocketStatusInfo where
  socketFd : Int
  status : Nat
deriving DecidableEq

abbrev PollResult := List SocketStatusInfo

structure PollGroup where
  pfds : List PollFd
  pfdConfig : Nat
deriving DecidableEq

namespace PollGroup

def create (config : Nat) : PollGroup :=
  ⟨[], (if config &&& SocketStatus.readable ≠ 0 then POLLIN else 0) |||
    (if config &&& SocketStatus.writable ≠ 0 then POLLOUT else 0)⟩

def addSocket (g : PollGroup) (fd : Int) : PollGroup :=
  { g with pfds := g.pfds ++ [⟨fd, g.pfdConfig, 0⟩] }

def removeSocket (g : PollGroup) (fd : Int) : PollGroup :=
  { g with pfds := g.pfds.filter fun pfd => pfd.fd ≠ fd }

def fds (g : PollGroup) : List Int := g.pfds.map (·.fd)

/-- The entries with events, in the order of the group. -/
def result (pfds : List PollFd) : PollResult :=
  (pfds.filter fun pfd => pfd.revents ≠ 0).map fun pfd =>
    ⟨pfd.fd, ssmFromRevents pfd.revents⟩

def poll (g : PollGroup) : Sys (PollGroup × PollResult) := do
  let (pfds, _) ← Sys.poll g.pfds
  return ({ g with pfds := pfds }, result pfds)

def size (g : PollGroup) : Nat := g.pfds.length

end PollGroup

def anyAddress : String := "0.0.0.0"

def AI_PASSIVE : Nat := 0x0001
def AI_ADDRCONFIG : Nat := 0x0020

namespace Gai
/-- The null pointer is the empty list. -/
def getaddrinfo (hostname service : String) : Sys (List (Int × List Byte)) := do
  let useInaddrAny := hostname == anyAddress
  let targetInfo ← Sys.getaddrinfo (if useInaddrAny then none else some hostname) service
    (AI_ADDRCONFIG ||| if useInaddrAny then AI_PASSIVE else 0)
  return targetInfo.getD []
end Gai

def resolve (hostname service : String) (ec : ErrorCode) : Sys (List Endpoint × ErrorCode) := do
  let targetInfo ← Gai.getaddrinfo hostname service
  if targetInfo.isEmpty then return ([], .assign 3)
  else return (targetInfo.map fun ai => Endpoint.fromNativeAddress ai.1 ai.2, ec)

theorem resolve_silent (hostname service : String) (ec : ErrorCode) :
    Sys.Silent (resolve hostname service ec) := by
  have hgai : Sys.Silent (Gai.getaddrinfo hostname service) :=
    (Sys.Silent.ask _).bind fun targetInfo => .pure _
  exact hgai.bind fun targetInfo => .ite (.pure _) (.pure _)

end Yonaa
