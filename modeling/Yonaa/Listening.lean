import Yonaa.Crashes
import Yonaa.Creation
import Yonaa.Lifetime
import Yonaa.Streams

/-! Where a server listens. Its start-up either ends the process, before anything was done, or
settles the socket that every connection of the run is accepted from. -/
namespace Yonaa
open Relation

def usableSocket : Option (Endpoint × Int × List Answer) → Option (Endpoint × Int)
  | some (e, fd, _) => if fd = 0 then none else some (e, fd)
  | none => none

/-- The endpoints that ::getaddrinfo answers with, and the answers after that. -/
def found : List Answer → List Endpoint × List Answer
  | .getaddrinfo (some infos)::rest =>
    (infos.map fun ai => Endpoint.fromNativeAddress ai.1 ai.2, rest)
  | _ => ([], [])

def listeningStages : List Stage := listening Acceptor.backlogSize true

/-- Where the server listens: at the first of the endpoints found that can be made to. -/
def listensOn (fds : List Int) (answers : List Answer) : Option (Endpoint × Int) :=
  usableSocket (opened listeningStages fds (found answers).1 (found answers).2)

/-- Between the two histories all endpoints failed, or the first one that did not got the
descriptor 0, which stands for no socket. -/
def Missed (stages : List Stage) (es : List Endpoint) (setUps setUps' : List SetUp) : Prop :=
  NoneMade stages es setUps setUps' ∨ ∃ e, MadeFirst stages es e 0 setUps setUps'

def AcceptsOn (fd : Int) (log : List Observation) : Prop :=
  ∀ o ∈ log, ∀ a result, o.event = .sys (.accept a result) → a = fd

theorem AcceptsOn.append {fd : Int} {log new : List Observation} (h : AcceptsOn fd log)
    (hnew : AcceptsOn fd new) : AcceptsOn fd (log++new) := List.forall_mem_append.mpr ⟨h,hnew⟩

theorem AcceptsOn.plain {fd : Int} {new : List Observation}
    (h : ∀ o ∈ new, o.event.isPlain) : AcceptsOn fd new := by
  intro o ho a result he
  have hplain := h o ho
  rw [he] at hplain
  exact hplain.elim

theorem AcceptsOn.single {fd result : Int} {p : Process} :
    AcceptsOn fd [⟨.sys (.accept fd result),p⟩] := by
  intro o ho a result he
  rw [List.mem_singleton.mp ho] at he
  cases he
  rfl

/-! The start-up. -/

theorem resolve_cases (hostname service : String) (ec : ErrorCode) (s : SysState) :
    (resolve hostname service ec).run s =
      (.ok ((found s.answers).1, ec), { s with answers := (found s.answers).2 }) ∨
    (∃ s', (resolve hostname service ec).run s = (.ok ([], .assign 3), s') ∧
      (found s.answers).1 = [] ∧ s'.kernel = s.kernel) ∨
    ∃ s', (resolve hostname service ec).run s = (.error .cut, s') := by
  obtain ⟨k,answers,calls⟩ := s
  cases answers with
  | nil => exact Or.inr (Or.inr ⟨_,rfl⟩)
  | cons a rest => cases a with
    | getaddrinfo r => cases r with
      | none => exact Or.inr (Or.inl ⟨_,rfl,rfl,rfl⟩)
      | some infos => cases infos with
        | nil => exact Or.inr (Or.inl ⟨_,rfl,rfl,rfl⟩)
        | cons ai infos => exact Or.inl rfl
    | _ => exact Or.inr (Or.inr ⟨_,rfl⟩)

namespace Acceptor
open Sys

theorem openOn_opened (a : Acceptor) (es : List Endpoint) (reuseAddr : Bool) (s : SysState) :
    Prog.Holds
      (fun x s' => x.2.isSet = false ∧ x.1.socket ≠ 0 ∧ (∃ e,
          usableSocket (opened (listening backlogSize reuseAddr) s.kernel.fds es s.answers) =
            some (e,x.1.socket) ∧ MadeFirst (listening backlogSize reuseAddr) es e x.1.socket
              s.kernel.setUps s'.kernel.setUps) ∨
        x.2.isSet = true ∧
          usableSocket (opened (listening backlogSize reuseAddr) s.kernel.fds es s.answers) = none ∧
          Missed (listening backlogSize reuseAddr) es s.kernel.setUps s'.kernel.setUps)
      (fun e _ => e = .cut) ((a.openOn es .clear reuseAddr).run s) := by
  unfold openOn
  cases es with
  | nil =>
    exact Or.inr ⟨rfl,by simp [opened,usableSocket],Or.inl ⟨[],.nil,(List.append_nil _).symm⟩⟩
  | cons e es =>
    rw [if_neg (by simp),SocketOps.createListeningSocket_eq]
    have h := SocketOps.createWith_created (listening backlogSize reuseAddr) (e::es) s
    generalize hr : (SocketOps.createWith (listening backlogSize reuseAddr) (e::es)).run s = r at h
    cases h with
    | @found e' fd s' ho hmade hnew hfresh hfds he =>
      rw [Prog.bind_ok hr,ho]
      by_cases hz : fd = 0
      · rw [if_pos hz]
        exact Or.inr ⟨rfl,if_pos hz,Or.inr ⟨e',hz ▸ hmade⟩⟩
      · rw [if_neg hz,SocketOps.getLocalEndpoint]
        obtain ⟨localEndpoint,s'',hq,hsame⟩ | ⟨s'',hq,-⟩ :=
          SocketOps.getEndpoint_cases fd true s'
        · rw [Prog.bind_ok hq]
          exact Or.inl ⟨rfl,hz,e',if_neg hz,hsame.setUps ▸ hmade⟩
        · rw [Prog.bind_error hq]
          rfl
    | none ho hmade hfresh hfds herrno he =>
      rw [Prog.bind_ok hr,if_pos rfl,ho]
      exact Or.inr ⟨rfl,rfl,Or.inl hmade⟩
    | cut ho he =>
      rw [Prog.bind_error hr]
      rfl

end Acceptor

namespace Server
open Net Prog

/-- Opening the acceptor makes it listen at the first endpoint that can be made to; without
such an endpoint the process exits. -/
theorem openAcceptor_listens {w : World} (hec : w.server.ec = .clear) :
    Holds (fun _ w' => w'.server.acceptor.socket ≠ 0 ∧ ∃ e,
        listensOn w.kernel.fds w.answers = some (e,w'.server.acceptor.socket) ∧
          MadeFirst listeningStages (found w.answers).1 e w'.server.acceptor.socket
            w.kernel.setUps w'.kernel.setUps)
      (fun e w' => e = .cut ∨ (e = .exit ∧ listensOn w.kernel.fds w.answers = none ∧
        Missed listeningStages (found w.answers).1 w.kernel.setUps w'.kernel.setUps))
      (openAcceptor.run w) := by
  unfold openAcceptor
  rw [bind_ok (run_setServer _ _),run_server_bind,run_server_bind]
  have hw1 : (w.withServer fun s => { s with running := true }).kernel = w.kernel ∧
      (w.withServer fun s => { s with running := true }).answers = w.answers ∧
      (w.withServer fun s => { s with running := true }).server.ec = .clear := ⟨rfl,rfl,hec⟩
  generalize (w.withServer fun s => { s with running := true }) = w1 at hw1 ⊢
  obtain ⟨hkernel,hanswers,hec1⟩ := hw1
  have hresolve := resolve_cases anyAddress (toString w1.server.port) w1.server.ec (sysPart w1)
  have hsys : (sysPart w1).answers = w.answers := hanswers
  rw [hsys] at hresolve
  obtain hr | ⟨s,hr,hnone,hsame⟩ | ⟨s,hr⟩ := hresolve
  · rw [bind_ok (sys_ok hr)]
    dsimp only
    rw [bind_ok (run_setEc _ _),hec1,if_neg (by simp),run_server_bind]
    generalize hw2 : (putSys w1
      { sysPart w1 with answers := (found w.answers).2 }).withEc .clear = w2
    have hsys : (sysPart w2).kernel = w.kernel ∧ (sysPart w2).answers = (found w.answers).2 := by
      rw [← hw2,← hkernel]
      exact ⟨rfl,rfl⟩
    have h := w2.server.acceptor.openOn_opened (found w.answers).1 true (sysPart w2)
    rw [hsys.1,hsys.2] at h
    generalize hr2 : (w2.server.acceptor.openOn _ .clear true).run (sysPart w2) = r at h
    cases r with
    | mk r s => cases r with
      | error e =>
        rw [bind_error (sys_error hr2)]
        exact Or.inl h
      | ok x =>
        rw [bind_ok (sys_ok hr2),bind_ok (run_setServer _ _)]
        obtain ⟨hset,h0,ho⟩ | ⟨hset,hmissed⟩ := h
        · rw [if_neg (by simp [hset])]
          exact ⟨h0,ho⟩
        · rw [if_pos hset]
          exact Or.inr ⟨rfl,hmissed⟩
  · rw [bind_ok (sys_ok hr)]
    refine Or.inr ⟨rfl,?_,?_⟩
    · rw [listensOn,hnone]
      simp [opened,usableSocket]
    · rw [hnone]
      refine Or.inl ⟨[],.nil,?_⟩
      rw [List.append_nil,← hkernel]
      exact congrArg Kernel.setUps hsame
  · rw [bind_error (sys_error hr)]
    exact Or.inl rfl

end Server

/-! The run. -/

open Server in
theorem Piece.accepts {fd : Int} {x y : Point × World} (h : Piece x y)
    (hfd : x.1 = .accepting → x.2.server.acceptor.socket = fd) :
    ∃ new, y.2.log = x.2.log++new ∧ AcceptsOn fd new := by
  cases h with
  | plain hlog hnew hstay => exact ⟨_,hlog,.plain hnew⟩
  | accepted h =>
    obtain rfl := hfd rfl
    cases h with
    | refused hq hlog =>
      obtain hlog | ⟨p,-,hlog⟩ := hlog
      · exact ⟨[],by simp [hlog],List.forall_mem_nil _⟩
      · exact ⟨_,hlog,.single⟩
    | @dropped w' fd p closes hq hnew hp hec hlog hcloses =>
      refine ⟨_,by rw [hlog,List.append_cons,List.append_assoc],.append .single (.plain ?_)⟩
      obtain rfl | ⟨q,rfl⟩ := hcloses
      · exact List.forall_mem_nil _
      · exact plain_single trivial
    | registered hnew hconn hp hec hfds hs hn hlog =>
      refine ⟨_,by rw [World.note_log,hlog,List.append_assoc],.append .single ?_⟩
      intro o ho a result he
      rw [List.mem_singleton.mp ho] at he
      cases he
    | cut hlog =>
      obtain hlog | ⟨fd,p,-,hlog⟩ := hlog
      · exact ⟨[],by simp [hlog],List.forall_mem_nil _⟩
      · exact ⟨_,hlog,.single⟩
  | messaged hp h =>
    obtain ⟨new,hlog,hnew⟩ := h.recorded
    refine ⟨_,hlog,fun o ho a result he => ?_⟩
    obtain rfl | ho := List.mem_cons.mp ho
    · cases he
    · have hmsg := hnew o ho
      rw [he] at hmsg
      exact hmsg.elim
  | received hrun h =>
    obtain ⟨new,hlog,hidle,-⟩ := h.idle
    refine ⟨new,hlog,fun o ho a result he => ?_⟩
    have hacc := hidle result o ho
    rw [Observation.Idle,he] at hacc
    exact absurd rfl hacc

theorem Reachable.accepts {base : List Int} {w : World} (hw : Reachable (.top,w))
    (hlog : w.log = []) (hb : Balance base w.server.acceptor w.toProcess) {x : Point × World}
    (h : ReflTransGen Step (.top,w) x) : AcceptsOn w.server.acceptor.socket x.2.log := by
  induction h with
  | refl =>
    rw [hlog]
    exact List.forall_mem_nil _
  | @tail y z hxy hs ih =>
    obtain ⟨env,hpath⟩ := hw
    have hbal := (Balanced.moves (Reachable.passed ⟨env,hpath⟩) hlog hb
      (Reachable.moves ⟨env,hpath⟩ hxy)).1
    obtain ⟨new,hl,hnew⟩ :=
      (hs.piece (Reachable.passed ⟨env,hpath.trans hxy⟩).base).accepts fun hp => by
        obtain ⟨p,v⟩ := y
        cases hp
        rw [hbal.acceptor]
    rw [hl]
    exact ih.append hnew

theorem Move.closes {x y : Point × World} (h : Move x y) (hy : y.1 = .done) :
    x.1 = .left ∧ (x.2.server.acceptor.socket ≠ 0 →
      x.2.server.acceptor.socket ∉ y.2.kernel.fds) := by
  cases h with
  | api hp h =>
    cases hy
    exact hp.elim
  | shut ha hs hn hl hnew hfds =>
    refine ⟨rfl,fun h0 hmem => ?_⟩
    rw [hfds,List.mem_filter] at hmem
    simp [h0] at hmem
  | _ => cases hy

theorem Balanced.closed {base : List Int} {a : Acceptor} {w w' : World} (hw : Passed (.top,w))
    (hlog : w.log = []) (hb : Balance base a w.toProcess) (h0 : a.socket ≠ 0)
    (h : ReflTransGen Move (.top,w) (.done,w')) : a.socket ∉ w'.kernel.fds := by
  cases h with
  | @tail y _ hxy hm =>
    obtain ⟨hp,hfds⟩ := hm.closes rfl
    obtain ⟨p,v⟩ := y
    cases hp
    have hbal : Balance base a v.toProcess := (Balanced.moves hw hlog hb hxy).1
    rw [hbal.acceptor] at hfds
    exact hfds h0

open Server Prog in
/-- The start-up decides whether and where a server listens. If the first of the endpoints found
that can be made to listen gets the descriptor 0, or there is none, the process exits before
anything is done. Otherwise it never exits, calls ::accept on the socket made for this endpoint
only, has this socket open whenever it announces a client or passes data on, and closes it when
the network thread returns. -/
theorem Environment.listens (env : Environment) (fuel : Nat) :
    (listensOn env.kernel.fds env.answers = none → env.log fuel = [] ∧
      ((env.run fuel).1 = .error .exit ∨ (env.run fuel).1 = .error .cut) ∧
      ∀ w, openAcceptor.run env.initial = (.error .exit, w) →
        Missed listeningStages (found env.answers).1 env.kernel.setUps w.kernel.setUps) ∧
    ∀ e fd, listensOn env.kernel.fds env.answers = some (e,fd) →
      (env.run fuel).1 ≠ .error .exit ∧
      (∀ w, openAcceptor.run env.initial = (.ok (), w) → MadeFirst listeningStages
        (found env.answers).1 e fd env.kernel.setUps w.kernel.setUps) ∧
      AcceptsOn fd (env.log fuel) ∧
      (∀ o ∈ env.log fuel, o.event.isEntry → fd ∈ o.state.kernel.fds) ∧
      ((env.run fuel).1 = .ok () → fd ∉ (env.run fuel).2.kernel.fds) := by
  have hopen := openAcceptor_listens (w := env.initial) rfl
  cases ho : openAcceptor.run env.initial with
  | mk r w => cases r with
    | error e =>
      rw [ho] at hopen
      have hrun : env.run fuel = (.error e, w) := bind_error ho
      have hlog : env.log fuel = [] := by
        obtain ⟨w',hr,-⟩ | ⟨e',w',hr,hl,-⟩ := openAcceptor_cases env.initial
        · rw [ho] at hr
          cases hr
        · rw [ho] at hr
          cases hr
          rw [log,hrun,hl]
          rfl
      rw [hlog,hrun]
      obtain rfl | ⟨rfl,hnone,hmissed⟩ := hopen
      · exact ⟨fun _ => ⟨rfl,Or.inr rfl,(fun _ h => by cases h)⟩,fun _ fd _ => ⟨by simp,
          (fun _ h => by cases h),List.forall_mem_nil _,List.forall_mem_nil _,by simp⟩⟩
      · refine ⟨fun _ => ⟨rfl,Or.inl rfl,fun w' hw' => ?_⟩,fun e fd hfd => ?_⟩
        · cases hw'
          exact hmissed
        have hfd : listensOn env.initial.kernel.fds env.initial.answers = some (e,fd) := hfd
        rw [hnone] at hfd
        cases hfd
    | ok u =>
      rw [ho] at hopen
      obtain ⟨h0,e,hsome,hmade⟩ := hopen
      have hsome : listensOn env.kernel.fds env.answers = some (e,w.server.acceptor.socket) := hsome
      rw [hsome]
      refine ⟨fun h => (by cases h),fun e' fd hfd => ?_⟩
      cases hfd
      obtain ⟨hlog,hb⟩ := env.balance_opened ho
      obtain ⟨hreach,p,hsteps,hdone⟩ := env.steps_opened fuel ho
      have hmoves := hreach.moves hsteps
      refine ⟨?_,?_,hreach.accepts hlog hb hsteps,?_,fun hok => ?_⟩
      · have hend := env.settled fuel ho
        generalize env.run fuel = r at hend ⊢
        obtain ⟨r,w'⟩ := r
        rintro rfl
        obtain ⟨h,-⟩ | ⟨h,-⟩ := hend
        · simp at h
        · simp at h
      · intro w' hw'
        cases hw'
        exact hmade
      · intro o hmem he
        have hbal := (Balanced.moves hreach.passed hlog hb hmoves).2 o hmem he
        exact (hbal.fds _ h0).mpr (Or.inl (hbal.own.resolve_left h0))
      · cases hdone hok
        exact Balanced.closed hreach.passed hlog hb h0 hmoves

theorem Environment.listens_broadcast :
    (∃ w, Server.openAcceptor.run broadcast.initial = (.ok (), w) ∧
      MadeFirst listeningStages (found broadcast.answers).1
        (.fromNativeAddress 6 (inetAddress 0 0 0 0)) 3 [] w.kernel.setUps) ∧
    AcceptsOn 3 (broadcast.log 5) := by
  obtain ⟨-,hmade,haccepts,-⟩ := (broadcast.listens 5).2
    (.fromNativeAddress 6 (inetAddress 0 0 0 0)) 3 (by decide +kernel)
  exact ⟨⟨_,rfl,hmade _ rfl⟩,haccepts⟩

/-- The first endpoint cannot be bound, the second one is listened on. -/
example : listensOn [0,1,2] [.getaddrinfo (some [(6,inetAddress 10 0 0 1),
      (6,inetAddress 0 0 0 0)]),.socket (.ok 3),.setsockopt (.ok ()),
      .bind (.error ⟨98,by decide⟩),.socket (.ok 4),.setsockopt (.ok ()),.bind (.ok ()),
      .listen (.ok ())] = some (.fromNativeAddress 6 (inetAddress 0 0 0 0),4) := by decide +kernel

end Yonaa
