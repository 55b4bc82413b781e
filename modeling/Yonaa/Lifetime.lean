import Yonaa.Objects
import Yonaa.Registry
import Yonaa.Triples

/-! The descriptors over the whole life of a server: between the pieces the process holds
those it held when the acceptor had been opened and the clients' sockets, and after the
destructor neither of the server's own is left. -/
namespace Yonaa
open Relation

def sockets (cs : List (Option ClientInfo)) : List Int := (entries cs).map fun c => c.conn.socket

/-- The open descriptors, apart from 0: those in base and the sockets of the entries, which
are not in base. The acceptor a is one of base if it is open. -/
structure Balance (base : List Int) (a : Acceptor) (p : Process) : Prop where
  acceptor : p.server.acceptor = a
  own : a.socket = 0 ∨ a.socket ∈ base
  foreign : ∀ fd ≠ 0, fd ∈ sockets p.server.clients → fd ∉ base
  fds : ∀ fd ≠ 0, fd ∈ p.kernel.fds ↔ fd ∈ base ∨ fd ∈ sockets p.server.clients

/-- The balance at each point. In the loop of the sweep it may be lost, but then an empty
pointer is ahead. In the end the acceptor is closed. -/
def Balanced (base : List Int) (a : Acceptor) : Point × World → Prop
  | (.start,_) => False
  | (.removing _ _ i,w) => none ∈ w.server.clients.drop i ∨ Balance base a w.toProcess
  | (.done,w) => ∃ a', a'.isOpen = false ∧
    Balance (base.filter fun fd => a.socket = 0 ∨ fd ≠ a.socket) a' w.toProcess
  | (.dead,_) => True
  | (_,w) => Balance base a w.toProcess

section Sockets
variable {w : World} {i : Nat} {c : ClientInfo}

theorem sockets_set (c' : ClientInfo) (hi : w.server.clients[i]? = some (some c))
    (hs : c'.conn.socket = c.conn.socket) :
    sockets (w.server.clients.set i (some c')) = sockets w.server.clients :=
  map_entries_set hi hs

theorem mem_sockets_closed (c' : ClientInfo) (h : Sound w)
    (hi : w.server.clients[i]? = some (some c))
    (h0 : c'.conn.socket = 0) {fd : Int} (hfd : fd ≠ 0) :
    fd ∈ sockets (w.server.clients.set i (some c')) ↔
      fd ∈ sockets w.server.clients ∧ fd ≠ c.conn.socket := by
  constructor
  · intro hmem
    obtain ⟨d,hd,rfl⟩ := List.mem_map.mp hmem
    obtain rfl | ⟨hd,hcd⟩ := h.others hi hd
    · exact absurd h0 hfd
    · exact ⟨List.mem_map_of_mem hd,Apart.symm _ _ hcd hfd⟩
  · intro ⟨hmem,hne⟩
    obtain ⟨d,hd,rfl⟩ := List.mem_map.mp hmem
    obtain ⟨l,r,hl,hr⟩ := entries_set hi c'
    refine List.mem_map_of_mem ?_
    rw [hr]
    rw [hl] at hd
    obtain hd | hd := List.mem_append.mp hd
    · exact List.mem_append_left _ hd
    · obtain rfl | hd := List.mem_cons.mp hd
      · exact absurd rfl hne
      · exact List.mem_append_right _ (List.mem_cons_of_mem _ hd)

end Sockets

namespace Balance
variable {base : List Int} {a : Acceptor} {p p' : Process}

theorem congr (h : Balance base a p) (ha : p'.server.acceptor = p.server.acceptor)
    (hcs : ∀ fd ≠ 0, fd ∈ sockets p'.server.clients ↔ fd ∈ sockets p.server.clients)
    (hf : ∀ fd ≠ 0, fd ∈ p'.kernel.fds ↔ fd ∈ p.kernel.fds) : Balance base a p' := by
  refine ⟨ha.trans h.acceptor,h.own,?_,?_⟩
  · exact fun fd h0 hfd => h.foreign fd h0 ((hcs fd h0).mp hfd)
  · intro fd h0
    rw [hf fd h0,hcs fd h0]
    exact h.fds fd h0

theorem same (h : Balance base a p) (ha : p'.server.acceptor = p.server.acceptor)
    (hcs : sockets p'.server.clients = sockets p.server.clients)
    (hf : ∀ fd ≠ 0, fd ∈ p'.kernel.fds ↔ fd ∈ p.kernel.fds) : Balance base a p' :=
  h.congr ha (fun fd _ => by rw [hcs]) hf

theorem close (h : Balance base a p) (ha : p'.server.acceptor = p.server.acceptor) {s : Int}
    (hs0 : s ≠ 0) (hs : s ∈ sockets p.server.clients)
    (hcs : ∀ fd ≠ 0, fd ∈ sockets p'.server.clients ↔ fd ∈ sockets p.server.clients ∧ fd ≠ s)
    (hf : ∀ fd ≠ 0, fd ∈ p'.kernel.fds ↔ fd ∈ p.kernel.fds ∧ fd ≠ s) : Balance base a p' := by
  refine ⟨ha.trans h.acceptor,h.own,?_,?_⟩
  · exact fun fd h0 hfd => h.foreign fd h0 ((hcs fd h0).mp hfd).1
  · intro fd h0
    rw [hf fd h0,hcs fd h0,h.fds fd h0]
    constructor
    · rintro ⟨hb | hfd,hne⟩
      · exact Or.inl hb
      · exact Or.inr ⟨hfd,hne⟩
    · rintro (hb | ⟨hfd,hne⟩)
      · exact ⟨Or.inl hb,fun he => h.foreign s hs0 hs (he ▸ hb)⟩
      · exact ⟨Or.inr hfd,hne⟩

theorem register (h : Balance base a p) (ha : p'.server.acceptor = p.server.acceptor) {s : Int}
    (hs : s ∉ p.kernel.fds)
    (hcs : sockets p'.server.clients = sockets p.server.clients++[s])
    (hf : p'.kernel.fds = s::p.kernel.fds) : Balance base a p' := by
  refine ⟨ha.trans h.acceptor,h.own,?_,?_⟩
  · intro fd h0 hfd
    rw [hcs] at hfd
    obtain hfd | hfd := List.mem_append.mp hfd
    · exact h.foreign fd h0 hfd
    · rw [List.mem_singleton.mp hfd] at h0 ⊢
      exact fun hb => hs ((h.fds s h0).mpr (Or.inl hb))
  · intro fd h0
    rw [hf,hcs,List.mem_cons,List.mem_append,List.mem_singleton,h.fds fd h0]
    tauto

end Balance

theorem Quiet.balance {base : List Int} {a : Acceptor} {b : Bool} {w w' : World}
    (h : Quiet b w w') (hb : Balance base a w.toProcess) : Balance base a w'.toProcess := by
  obtain ⟨ec,hs⟩ := h.server
  exact hb.same (by rw [hs]) (by rw [hs]) fun fd h0 => ⟨h.open_old fd h0,h.open_kept fd⟩

theorem Balance.mark {base : List Int} {a : Acceptor} {w : World} {i : Nat} {c : ClientInfo}
    (hb : Balance base a w.toProcess) (hi : w.server.clients[i]? = some (some c)) :
    Balance base a (w.mark i c).toProcess :=
  hb.same rfl (sockets_set { c with isConnected := false } hi rfl) fun _ _ => Iff.rfl

theorem ApiStep.balance {base : List Int} {a : Acceptor} {w w' : World} (h : ApiStep w w')
    (hb : Balance base a w.toProcess) : Balance base a w'.toProcess := by
  cases h with
  | quiet h => exact h.balance hb
  | marked hi => exact hb.mark hi
  | stopped => exact hb.same rfl rfl fun _ _ => Iff.rfl

theorem mem_sockets_take {first : Nat} {cs : List (Option ClientInfo)}
    (h : ∀ j c, first ≤ j → cs[j]? = some (some c) → c.conn.socket = 0) {fd : Int} (h0 : fd ≠ 0) :
    fd ∈ sockets (cs.take first) ↔ fd ∈ sockets cs := by
  constructor
  · exact fun hmem => ((entries_take cs first).map _).subset hmem
  · intro hmem
    obtain ⟨c,hc,rfl⟩ := List.mem_map.mp hmem
    obtain ⟨j,hj⟩ := mem_entries_iff.mp hc
    refine List.mem_map_of_mem (mem_entries_iff.mpr ⟨j,?_⟩)
    rw [List.getElem?_take,if_pos,hj]
    by_contra hle
    exact h0 (h j c (Nat.le_of_not_lt hle) hj)

open Server in
theorem Balanced.move {base : List Int} {a : Acceptor} {x y : Point × World} (hm : Move x y)
    (hx : Base x) (h : Balanced base a x) : Balanced base a y := by
  cases hm with
  | opened hs hn hl => exact h.elim
  | @api p w w' hp hstep =>
    cases p with
    | start => exact hp.elim
    | left => exact hp.elim
    | done => exact hp.elim
    | dead => exact hp.elim
    | sweeping => exact hp.elim
    | removing first n i => exact h.imp (hstep.kept.empty i) hstep.balance
    | top => exact hstep.balance h
    | accepting => exact hstep.balance h
    | events es => exact hstep.balance h
  | enter hrun => exact h.same rfl rfl fun _ _ => Iff.rfl
  | leave hrun => exact h
  | refused hrun hq => exact hq.balance h
  | @registered w w1 fd conn p hrun hnew hconn hp hfds hs hn hl =>
    have h : Balance base a w.toProcess := h
    refine h.register (s := fd) (by rw [World.note_toProcess,hs]) hnew.2 ?_ hfds
    rw [World.note_toProcess,hs,sockets,entries_concat,List.map_append,List.map_singleton,hconn]
    rfl
  | @polled w w' es hp =>
    obtain ⟨g,-,hs⟩ := hp.server
    have h : Balance base a w.toProcess := h
    exact h.same (by rw [hs]) (by rw [hs]) fun fd _ => by rw [hp.fds]
  | ignored => exact h
  | @rejected w s e es i j c d ec hrun hf hfds hcalls hd =>
    have hb : Balance base a ((Net.putSys w s).withEc ec).toProcess :=
      Balance.same h rfl rfl fun fd _ => by rw [World.withEc_kernel,World.putSys_kernel,hfds]
    exact hb.mark (find_found hd).1
  | @closed w s e es i j flags c d ec hrun hf hopen hfds hcalls hd =>
    have hc := (find_found hf).1
    have hb : Balance base a
        (((Net.putSys w s).withClient i { c with conn := {} }).withEc ec).toProcess := by
      refine Balance.close h rfl hopen (List.mem_map_of_mem (mem_of_getElem? hc))
        (fun fd h0 => mem_sockets_closed { c with conn := {} } hx.1 hc rfl h0) ?_
      intro fd _
      rw [World.withEc_kernel,World.withClient_kernel,World.putSys_kernel,hfds]
      simp
    exact hb.mark (find_found hd).1
  | @delivered w s e es i flags c bytes hrun hf hopen hne hsize hec hfds hcalls =>
    exact Balance.same h rfl rfl fun fd _ => by
      rw [World.note_toProcess,World.putSys_kernel,hfds]
  | sweep => exact h.same rfl rfl fun _ _ => Iff.rfl
  | skip hd => exact h
  | parted hcs hkept hgone => exact Or.inr h
  | @moved w w' kept gap hflag hnone hsub hgap hs hn hl =>
    left
    simp [hs,hnone]
  | @disconnected w w1 first n i c conn hi hconn hs hn hfds hl =>
    have hcs : (w1.note (.callback (.disconnect c.id))).server.clients =
        w.server.clients.set i (some { c with conn := conn }) := by
      rw [World.note_toProcess,hs]
    have hacc : (w1.note (.callback (.disconnect c.id))).server.acceptor = w.server.acceptor := by
      rw [World.note_toProcess,hs]
    obtain hnone | h := h
    · left
      rw [hcs]
      exact none_mem_drop_succ hi hnone
    · right
      by_cases h0 : c.conn.socket = 0
      · refine h.same hacc ?_ fun fd _ => by rw [World.note_toProcess,hfds]; simp [h0]
        rw [hcs]
        exact sockets_set { c with conn := conn } hi (hconn.trans h0.symm)
      · refine h.close hacc h0 (List.mem_map_of_mem (mem_of_getElem? hi)) (fun fd hfd => ?_)
          fun fd _ => by rw [World.note_toProcess,hfds]; simp [h0]
        rw [hcs]
        exact mem_sockets_closed { c with conn := conn } hx.1 hi hconn hfd
  | @erased w first i =>
    have hlen : w.server.clients.length = i := by simpa using hx.2.length
    have hgone : none ∉ w.server.clients.drop i := by
      rw [List.drop_of_length_le (by omega)]
      exact List.not_mem_nil
    obtain ⟨-,hshut⟩ := hx.2.shut.resolve_left hgone
    have h : Balance base a w.toProcess := h.resolve_left hgone
    refine h.congr rfl (fun fd h0 => mem_sockets_take (fun j c hj hc => ?_) h0) fun _ _ => Iff.rfl
    exact hshut j c hj (by rw [← hlen]; exact (List.getElem?_eq_some_iff.mp hc).1) hc
  | @shut w w' a' new ha hs hn hl hnew hf =>
    have h : Balance base a w.toProcess := h
    rw [h.acceptor] at hf
    refine ⟨a',ha,by rw [hs],Or.inl (Acceptor.isOpen_false.mp ha),?_,?_⟩
    · rw [hs]
      exact fun fd h0 hfd hb => h.foreign fd h0 hfd (List.mem_filter.mp hb).1
    · intro fd h0
      have hne : fd ∈ sockets w.server.clients → a.socket = 0 ∨ fd ≠ a.socket := by
        intro hfd
        refine h.own.imp_right fun hown he => ?_
        exact h.foreign fd h0 hfd (he ▸ hown)
      rw [hs,hf,List.mem_filter,List.mem_filter,h.fds fd h0]
      simp only [decide_eq_true_eq]
      tauto
  | die hp hl hnew => trivial

/-! From the opening of the acceptor to the destructor. -/

namespace Acceptor
open Sys

theorem openOn_owns {a : Acceptor} {es : List Endpoint} {ec : ErrorCode} {reuseAddr : Bool}
    (h0 : a.socket = 0) (s : SysState) :
    Prog.Holds (fun x s' => x.1.socket = 0 ∨ x.1.socket ∈ s'.kernel.fds) (fun _ _ => True)
      ((a.openOn es ec reuseAddr).run s) := by
  unfold openOn
  by_cases he : es.isEmpty = true
  · rw [if_pos he]
    exact Or.inl h0
  · rw [if_neg he]
    obtain ⟨fd,s',hr,-,hfd⟩ | ⟨e,s',hr,-⟩ :=
      SocketOps.createListeningSocket_found backlogSize reuseAddr es s
    · rw [Prog.bind_ok hr]
      by_cases hz : fd = 0
      · rw [if_pos hz]
        exact Or.inl h0
      · rw [if_neg hz]
        have hmem : fd ∈ s'.kernel.fds := by
          obtain ⟨-,-,hmem⟩ | ⟨hzero,-⟩ := hfd
          · exact hmem
          · exact absurd hzero hz
        obtain ⟨e,s'',hq,hs⟩ | ⟨s'',hq,-⟩ := SocketOps.getEndpoint_cases fd true s'
        · rw [SocketOps.getLocalEndpoint,Prog.bind_ok hq]
          exact Or.inr (hs.fds ▸ hmem)
        · rw [SocketOps.getLocalEndpoint,Prog.bind_error hq]
          trivial
    · rw [Prog.bind_error hr]
      trivial

end Acceptor

namespace Server
open Net Prog

/-- `~server`, after the network thread was joined: the members are destroyed in the reverse
order of their declaration. -/
def destroy : Net Unit := do
  sys (← server).acceptor.destroy
  (← server).clients.forM destroyClient

theorem openAcceptor_owns : Triple (fun w => w.server.acceptor.socket = 0) openAcceptor
    (fun _ w => w.server.acceptor.socket = 0 ∨ w.server.acceptor.socket ∈ w.kernel.fds)
    fun _ _ => True := by
  have hstop : ∀ P : World → Prop, Triple P (Prog.stop .exit : Net Unit)
      (fun _ w => w.server.acceptor.socket = 0 ∨ w.server.acceptor.socket ∈ w.kernel.fds)
      fun _ _ => True := fun P => Triple.stop fun _ _ => trivial
  refine Triple.bind (Q := fun _ w => w.server.acceptor.socket = 0) (Triple.modify fun _ h => h)
    fun _ => Triple.get_bind fun w hw => Triple.get_bind
      (P := fun w => w.server.acceptor.socket = 0) (fun w hw => ?_) w hw
  refine Triple.bind (P := fun w => w.server.acceptor.socket = 0)
    (Q := fun _ w => w.server.acceptor.socket = 0) (Triple.zoom fun w hw => ?_) (fun x => ?_) w hw
  · generalize (resolve _ _ _).run (sysPart w) = r
    cases r with
    | mk r s => cases r with
      | ok x => exact hw
      | error e => trivial
  · refine Triple.bind (Q := fun _ w => w.server.acceptor.socket = 0) (Triple.modify fun _ h => h)
      fun _ => .ite (fun _ => hstop _) fun _ => Triple.get_bind fun w hw => ?_
    refine Triple.bind (Q := fun y w => y.1.socket = 0 ∨ y.1.socket ∈ w.kernel.fds)
      (P := fun v => v = w) (Triple.zoom fun v hv => ?_) (fun y => ?_) w rfl
    · subst hv
      exact (Acceptor.openOn_owns hw (sysPart v)).mono (fun _ _ h => h) fun _ _ h => h
    · exact Triple.bind (Q := fun _ w => w.server.acceptor.socket = 0 ∨
        w.server.acceptor.socket ∈ w.kernel.fds) (Triple.modify fun _ h => h) fun _ =>
        .ite (fun _ => hstop _) fun _ => Triple.pure fun _ h => h

theorem destroyClients_fds {cs : List (Option ClientInfo)} {w w' : World}
    (h : (cs.forM destroyClient).run w = (.ok (), w')) {fd : Int} (h0 : fd ≠ 0) :
    fd ∈ w'.kernel.fds ↔ fd ∈ w.kernel.fds ∧ fd ∉ sockets cs := by
  induction cs generalizing w with
  | nil =>
    cases h
    simp [sockets]
  | cons e cs ih =>
    change (destroyClient e >>= fun _ => cs.forM destroyClient).run w = _ at h
    obtain ⟨⟨⟩,w1,hr,h⟩ := of_bind_ok h
    cases e with
    | none =>
      cases hr
      exact ih h
    | some c =>
      have hcs : sockets (some c::cs) = c.conn.socket::sockets cs := rfl
      rw [hcs,List.mem_cons,not_or]
      by_cases hc : c.conn.socket = 0
      · rw [destroyClient_closed hc] at hr
        cases hr
        rw [ih h,hc]
        tauto
      · obtain ⟨s,hd,hf,-⟩ | ⟨s,hd,-⟩ := destroyClient_open hc w
        · rw [hd] at hr
          cases hr
          rw [ih h,World.putSys_kernel,hf,List.mem_filter,decide_eq_true_eq]
          tauto
        · rw [hd] at hr
          cases hr

end Server

open Server Prog in
theorem Environment.steps_opened (env : Environment) (fuel : Nat) {w : World}
    (ho : openAcceptor.run env.initial = (.ok (), w)) : Reachable (.top,w) ∧
    ∃ p, ReflTransGen Step (.top,w) (p,(env.run fuel).2) ∧
      ((env.run fuel).1 = .ok () → p = .done) := by
  constructor
  · refine ⟨env,.single ?_⟩
    have hstep := Step.opening (w := env.initial)
    rw [ho] at hstep
    exact hstep
  have htrace : Traces Step (fun p _ => p = .top) (networkLoop fuel >>= fun _ => closeAcceptor)
      (fun _ p _ => p = .done) Bounded := by
    refine (traces_networkLoop fuel).bind fun _ => ?_
    exact (traces_piece (P := fun _ => True) (fun _ _ => .closing)
      closeAcceptor_unbounded).weaken fun _ _ hp => ⟨hp,trivial⟩
  have h := htrace .top w rfl
  have hrun : env.run fuel = (networkLoop fuel >>= fun _ => closeAcceptor).run w :=
    bind_ok ho
  rw [hrun]
  generalize (networkLoop fuel >>= fun _ => closeAcceptor).run w = r at h ⊢
  cases r with
  | mk r w' => cases r with
    | ok a =>
      obtain ⟨p,hp,hdone⟩ := h
      exact ⟨p,hp,fun _ => hdone⟩
    | error e =>
      obtain ⟨p,hp,-⟩ := h
      exact ⟨p,hp,fun h => nomatch h⟩

theorem Reachable.moves {x y : Point × World} (hx : Reachable x) (h : ReflTransGen Step x y) :
    ReflTransGen Move x y := by
  induction h with
  | refl => exact .refl
  | @tail y z hxy hs ih =>
    obtain ⟨env,hpath⟩ := hx
    exact ih.trans (hs.moves (Reachable.passed ⟨env,hpath.trans hxy⟩).base)

open Server in
theorem Environment.moves_opened (env : Environment) (fuel : Nat) {w : World}
    (ho : openAcceptor.run env.initial = (.ok (), w)) : Passed (.top,w) ∧
    ∃ p, ReflTransGen Move (.top,w) (p,(env.run fuel).2) ∧
      ((env.run fuel).1 = .ok () → p = .done) := by
  obtain ⟨hreach,p,hp,hdone⟩ := env.steps_opened fuel ho
  exact ⟨hreach.passed,p,hreach.moves hp,hdone⟩

/-- The balance along the moves, and wherever the user's handlers for new clients and data
are entered. -/
theorem Balanced.moves {base : List Int} {a : Acceptor} {w : World} (hw : Passed (.top,w))
    (hlog : w.log = []) (hb : Balance base a w.toProcess) {x : Point × World}
    (h : ReflTransGen Move (.top,w) x) : Balanced base a x ∧
    ∀ o ∈ x.2.log, o.event.isEntry → Balance base a o.state := by
  induction h with
  | refl => exact ⟨hb,by simp [hlog]⟩
  | @tail y z hxy hm ih =>
    obtain ⟨env,hpath⟩ := hw
    have hbase : Base y := Passed.base ⟨env,hpath.trans hxy⟩
    have hz := ih.1.move hm hbase
    refine ⟨hz,?_⟩
    obtain ⟨new,hl,hnew⟩ := hm.entry
    rw [hl]
    refine List.forall_mem_append.mpr ⟨ih.2,fun o ho he => ?_⟩
    obtain ⟨hstate,hpoint,-⟩ := hnew o ho he
    obtain ⟨p,w'⟩ := z
    rw [hstate]
    obtain rfl | ⟨es,rfl⟩ := hpoint
    · exact hz
    · exact hz

open Server in
theorem Environment.balance_opened {env : Environment} {w : World}
    (ho : openAcceptor.run env.initial = (.ok (), w)) : w.log = [] ∧
    Balance w.kernel.fds w.server.acceptor w.toProcess := by
  have hown := openAcceptor_owns env.initial rfl
  obtain ⟨w',hr,hl,-,a,hs⟩ | ⟨e,w',hr,-⟩ := openAcceptor_cases env.initial
  · rw [ho] at hr hown
    cases hr
    have hcs : sockets w.server.clients = [] := by
      rw [hs]
      rfl
    refine ⟨hl,rfl,hown,?_,?_⟩
    · rw [hcs]
      exact fun _ _ h => absurd h List.not_mem_nil
    · rw [hcs]
      simp
  · rw [ho] at hr
    cases hr

open Server in
/-- While the server runs the process has no other descriptors open than those it had when
the acceptor had been opened, and one for each client: none is leaked by an accept that
failed, a client that left or a handler. -/
theorem Environment.descriptors_balanced (env : Environment) (fuel : Nat) {w : World}
    (ho : openAcceptor.run env.initial = (.ok (), w)) :
    ∀ o ∈ env.log fuel, o.event.isEntry → ∀ fd ≠ 0, fd ∈ o.state.kernel.fds ↔
      fd ∈ w.kernel.fds ∨ fd ∈ sockets o.state.server.clients := by
  obtain ⟨hlog,hb⟩ := balance_opened ho
  obtain ⟨hw,p,hp,-⟩ := env.moves_opened fuel ho
  exact fun o hmem he => ((Balanced.moves hw hlog hb hp).2 o hmem he).fds

namespace Environment

def life (env : Environment) (fuel : Nat) : Except Halt Unit × World :=
  (Server.networkThreadFunction fuel >>= fun _ => Server.destroy).run env.initial

/-- A server that is stopped by the connect handler of its first client, and destroyed. -/
def brief : Environment where
  port := 5000
  kernel := ⟨[0,1,2],0,[]⟩
  answers := startup++pending 4++[.poll (.ok [0]),.shutdown (.ok ()),.close (.ok ()),
    .shutdown (.ok ()),.close (.ok ())]
  handlers := [[.stop]]
  stops := List.replicate 12 false

/-- The socket of the client is open when its connect handler is entered. -/
theorem descriptors_balanced_brief : ∃ o ∈ brief.log 5, o.event = .callback (.connect 1) ∧
    (4 ∈ o.state.kernel.fds ↔ 4 ∈ (Server.openAcceptor.run brief.initial).2.kernel.fds ∨
      4 ∈ sockets o.state.server.clients) := by
  have hlog : (brief.log 5)[3]?.map Observation.event = some (.callback (.connect 1)) := rfl
  obtain ⟨o,ho,he⟩ := Option.map_eq_some_iff.mp hlog
  have hmem := List.mem_of_getElem? ho
  have hentry : o.event.isEntry := by
    rw [he]
    trivial
  have hopened : Server.openAcceptor.run brief.initial =
      (.ok (),(Server.openAcceptor.run brief.initial).2) := Prod.ext (by decide +kernel) rfl
  exact ⟨o,hmem,he,brief.descriptors_balanced 5 hopened o hmem hentry 4 (by decide)⟩

end Environment

open Server Prog in
/-- After its destructor nothing is left open of a server: the descriptors are those that were
open when the acceptor had been opened, without the acceptor's. -/
theorem Environment.life_closes (env : Environment) (fuel : Nat) {w w' : World}
    (ho : openAcceptor.run env.initial = (.ok (), w))
    (h : env.life fuel = (.ok (), w')) : ∀ fd ≠ 0, fd ∈ w'.kernel.fds ↔
      fd ∈ w.kernel.fds ∧ fd ≠ w.server.acceptor.socket := by
  obtain ⟨hlog,hb⟩ := balance_opened ho
  obtain ⟨hw,p,hp,hdone⟩ := env.moves_opened fuel ho
  obtain ⟨⟨⟩,w1,hr,h⟩ := of_bind_ok h
  have hrun : env.run fuel = (.ok (), w1) := hr
  rw [hrun] at hp hdone
  obtain rfl : p = .done := hdone rfl
  obtain ⟨a,hclosed,hbal⟩ := (Balanced.moves hw hlog hb hp).1
  have hacc : w1.server.acceptor.isOpen = false := hbal.acceptor ▸ hclosed
  have hdestroy : destroy.run w1 = (w1.server.clients.forM destroyClient).run w1 := by
    unfold destroy
    rw [run_server_bind,bind_ok (sys_ok (Acceptor.destroy_closed hacc _)),run_server_bind]
    simp [Net.putSys,Net.sysPart]
  rw [hdestroy] at h
  intro fd h0
  rw [destroyClients_fds h h0,hbal.fds fd h0,List.mem_filter,decide_eq_true_eq]
  constructor
  · rintro ⟨⟨hfd,hne⟩ | hfd,hno⟩
    · refine ⟨hfd,fun he => ?_⟩
      obtain hz | hne := hne
      · exact h0 (he.trans hz)
      · exact hne he
    · exact absurd hfd hno
  · rintro ⟨hfd,hne⟩
    refine ⟨Or.inl ⟨hfd,Or.inr hne⟩,fun hs => ?_⟩
    exact hbal.foreign fd h0 hs (List.mem_filter.mpr ⟨hfd,decide_eq_true (Or.inr hne)⟩)

open Server in
/-- Neither the acceptor's socket nor the client's is left. -/
theorem Environment.life_closes_brief :
    (3 ∈ (brief.life 5).2.kernel.fds ↔ 3 ∈ (openAcceptor.run brief.initial).2.kernel.fds ∧
      3 ≠ (openAcceptor.run brief.initial).2.server.acceptor.socket) ∧
    (4 ∈ (brief.life 5).2.kernel.fds ↔ 4 ∈ (openAcceptor.run brief.initial).2.kernel.fds ∧
      4 ≠ (openAcceptor.run brief.initial).2.server.acceptor.socket) := by
  have hopened : openAcceptor.run brief.initial =
      (.ok (),(openAcceptor.run brief.initial).2) := Prod.ext (by decide +kernel) rfl
  have hlife : brief.life 5 = (.ok (),(brief.life 5).2) := Prod.ext (by decide +kernel) rfl
  exact ⟨brief.life_closes 5 hopened hlife 3 (by decide),
    brief.life_closes 5 hopened hlife 4 (by decide)⟩

end Yonaa
