import Yonaa.Callbacks
import Yonaa.Histories
import Yonaa.Polling
import Yonaa.Removal

/-! Inbound stream integrity of the server: what the data handler is given for a client is a
prefix of what ::recv returned on that client's socket. -/
namespace Yonaa
open Relation

def Observation.brings (id : ClientId) (o : Observation) : List Byte :=
  match o.event with
  | .sys (.recv fd _ _ _ data) =>
    if (entries o.state.server.clients).any fun c => c.id == id && c.conn.socket == fd then data
    else []
  | _ => []

def Observation.passes (id : ClientId) (o : Observation) : List Byte :=
  match o.event with
  | .callback (.dataReceive id' data) => if id' = id then data.data else []
  | _ => []

def brought (id : ClientId) (log : List Observation) : List Byte :=
  log.flatMap (Observation.brings id)

def passedOn (id : ClientId) (log : List Observation) : List Byte :=
  log.flatMap (Observation.passes id)

section Unread
variable {id : ClientId} {log new : List Observation}

theorem brought_unread (h : ∀ o ∈ new, o.event.isUnread) :
    brought id (log++new) = brought id log := by
  rw [brought,brought,List.flatMap_append]
  refine List.append_right_eq_self.mpr (List.flatMap_eq_nil_iff.mpr fun o ho => ?_)
  have hun := h o ho
  unfold Observation.brings
  split
  · rename_i he
    rw [he] at hun
    exact hun.elim
  · rfl

theorem passedOn_unread (h : ∀ o ∈ new, o.event.isUnread) :
    passedOn id (log++new) = passedOn id log := by
  rw [passedOn,passedOn,List.flatMap_append]
  refine List.append_right_eq_self.mpr (List.flatMap_eq_nil_iff.mpr fun o ho => ?_)
  have hun := h o ho
  unfold Observation.passes
  split
  · rename_i he
    rw [he] at hun
    exact hun.elim
  · rfl

end Unread

theorem brings_recv {w : World} {c : ClientInfo} {size flags : Nat} {n : Int} {bytes : List Byte}
    (hs : Sound w) (hc : c ∈ entries w.server.clients) (h0 : c.conn.socket ≠ 0) (id : ClientId) :
    Observation.brings id ⟨.sys (.recv c.conn.socket size flags n bytes),w.toProcess⟩ =
      if id = c.id then bytes else [] := by
  have howner := owner_of_apart hs.apart hc h0
  have hany : (entries w.server.clients).any
      (fun d => d.id == id && d.conn.socket == c.conn.socket) = decide (id = c.id) := by
    rw [Bool.eq_iff_iff,List.any_eq_true,decide_eq_true_eq]
    constructor
    · intro ⟨d,hd,h⟩
      obtain ⟨hid,hsock⟩ := Bool.and_eq_true_iff.mp h
      have hmem : d ∈ (entries w.server.clients).filter fun d => d.conn.socket == c.conn.socket :=
        List.mem_filter.mpr ⟨hd,hsock⟩
      rw [howner,List.mem_singleton] at hmem
      rw [← hmem]
      exact (beq_iff_eq.mp hid).symm
    · rintro rfl
      exact ⟨c,hc,by simp⟩
  simp only [Observation.brings,hany,decide_eq_true_eq]

/-- Nothing more is read from the client: it is marked and will not come up again in this
pass, the sweep will remove it, or it is gone. -/
def Drained (id : ClientId) : Point × World → Prop
  | (.events es,w) => ∀ c ∈ entries w.server.clients, c.id = id →
    c.isConnected = false ∧ (c.conn.socket ≠ 0 → c.fd ∉ es.map (·.socketFd))
  | (.sweeping,w) => ∀ c ∈ entries w.server.clients, c.id = id → c.isConnected = false
  | (.removing first _ i,w) => none ∈ w.server.clients.drop i ∨ ∀ (j : Nat) (c : ClientInfo),
    w.server.clients[j]? = some (some c) → c.id = id → first ≤ j
  | (.dead,_) => True
  | (_,w) => ∀ c ∈ entries w.server.clients, c.id ≠ id

theorem Kept.mem {w w' : World} (h : Kept w w') {d : ClientInfo}
    (hd : d ∈ entries w'.server.clients) : ∃ c ∈ entries w.server.clients, d.id = c.id ∧
      d.fd = c.fd ∧ d.conn = c.conn ∧ (d.isConnected = true → c.isConnected = true) := by
  obtain ⟨j,hj⟩ := mem_entries_iff.mp hd
  obtain ⟨c,hc,h⟩ := h.entry j d hj
  exact ⟨c,mem_of_getElem? hc,h⟩

theorem Kept.drained {id : ClientId} {p : Point} {w w' : World} (hp : p.live) (h : Kept w w')
    (hs : Drained id (p,w)) : Drained id (p,w') := by
  have hnone : (∀ c ∈ entries w.server.clients, c.id ≠ id) →
      ∀ d ∈ entries w'.server.clients, d.id ≠ id := by
    intro hs d hd
    obtain ⟨c,hc,hid,-⟩ := h.mem hd
    rw [hid]
    exact hs c hc
  cases p with
  | start => exact hp.elim
  | left => exact hp.elim
  | done => exact hp.elim
  | dead => exact hp.elim
  | sweeping => exact hp.elim
  | top => exact hnone hs
  | accepting => exact hnone hs
  | events es =>
    intro d hd hdid
    obtain ⟨c,hc,hid,hfd,hconn,hcc⟩ := h.mem hd
    obtain ⟨hmarked,hfree⟩ := hs c hc (hid.symm.trans hdid)
    refine ⟨Bool.eq_false_of_not_eq_true fun ht => ?_,by rw [hconn,hfd]; exact hfree⟩
    rw [hcc ht] at hmarked
    cases hmarked
  | removing first n i =>
    refine hs.imp (h.empty i) fun hs j d hd hdid => ?_
    obtain ⟨c,hc,hid,-⟩ := h.entry j d hd
    exact hs j c hc (hid.symm.trans hdid)

/-- An event is dealt with, and every client is as before, marked, or closed. -/
theorem Drained.event {id : ClientId} {e : SocketStatusInfo} {es : PollResult} {w w' : World}
    (hold : ∀ x ∈ entries w'.server.clients, ∃ y ∈ entries w.server.clients, x.id = y.id ∧
      x.fd = y.fd ∧ (x.conn.socket ≠ 0 → x.conn = y.conn) ∧
      (y.isConnected = false → x.isConnected = false))
    (h : Drained id (.events (e::es),w)) : Drained id (.events es,w') := by
  intro x hx hxid
  obtain ⟨y,hy,hid,hfd,hconn,hmark⟩ := hold x hx
  obtain ⟨hmarked,hfree⟩ := h y hy (hid.symm.trans hxid)
  refine ⟨hmark hmarked,fun h0 hmem => hfree (hconn h0 ▸ h0) (List.mem_cons_of_mem _ ?_)⟩
  rw [← hfd]
  exact hmem

open Server in
theorem Drained.move {id : ClientId} {x y : Point × World} (hm : Move x y) (hx : Base x)
    (hid : x.1 = .accepting → id ≠ x.2.nextAvailableId) (h : Drained id x) : Drained id y := by
  cases hm with
  | @opened w w' a hs hn hl =>
    have h : ∀ c ∈ entries w.server.clients, c.id ≠ id := h
    change ∀ c ∈ entries w'.server.clients, c.id ≠ id
    rw [hs]
    exact h
  | api hp hstep => exact hstep.kept.drained hp h
  | enter hrun => exact h
  | leave hrun => exact h
  | @refused w w' hrun hq =>
    exact Kept.drained trivial (.of_clients hq.clients (by rw [hq.pollGroup])) h
  | @registered w w1 fd conn p hrun hnew hconn hp hfds hs hn hl =>
    change ∀ c ∈ entries w1.server.clients, c.id ≠ id
    rw [hs,entries_concat]
    refine List.forall_mem_append.mpr ⟨h,List.forall_mem_singleton.mpr ?_⟩
    exact (hid rfl).symm
  | @polled w w' es hp =>
    obtain ⟨g,-,hs⟩ := hp.server
    intro c hc hcid
    rw [hs] at hc
    exact absurd hcid (h c hc)
  | ignored => exact h.event fun x hx => ⟨x,hx,rfl,rfl,fun _ => rfl,fun h => h⟩
  | @rejected w s e es i j c d ec hrun hf hfds hcalls hd =>
    refine h.event fun x hx => ?_
    obtain rfl | hx := mem_entries_set (find_found hd).1 hx
    · exact ⟨d,mem_of_getElem? (find_found hd).1,rfl,rfl,fun _ => rfl,fun _ => rfl⟩
    · exact ⟨x,hx,rfl,rfl,fun _ => rfl,fun h => h⟩
  | @closed w s e es i j flags c d ec hrun hf hopen hfds hcalls hd =>
    have hset : ∀ z ∈ entries (w.server.clients.set i (some { c with conn := {} })),
        ∃ y ∈ entries w.server.clients, z.id = y.id ∧ z.fd = y.fd ∧
          (z.conn.socket ≠ 0 → z.conn = y.conn) ∧ z.isConnected = y.isConnected := by
      intro z hz
      obtain rfl | hz := mem_entries_set (find_found hf).1 hz
      · exact ⟨c,mem_of_getElem? (find_found hf).1,rfl,rfl,fun h0 => absurd rfl h0,rfl⟩
      · exact ⟨z,hz,rfl,rfl,fun _ => rfl,rfl⟩
    refine h.event fun x hx => ?_
    obtain rfl | hx := mem_entries_set (find_found hd).1 hx
    · obtain ⟨y,hy,hid,hfd,hconn,-⟩ := hset d (mem_of_getElem? (find_found hd).1)
      exact ⟨y,hy,hid,hfd,hconn,fun _ => rfl⟩
    · obtain ⟨y,hy,hid,hfd,hconn,hc⟩ := hset x hx
      exact ⟨y,hy,hid,hfd,hconn,fun h => hc.trans h⟩
  | delivered => exact h.event fun x hx => ⟨x,hx,rfl,rfl,fun _ => rfl,fun h => h⟩
  | sweep => exact fun c hc hcid => (h c hc hcid).1
  | @skip w hd =>
    intro c hc hcid
    have hflag := hx.1.flagged c hc (h c hc hcid)
    rw [hd] at hflag
    cases hflag
  | @parted w kept gone hcs hkept hgone =>
    refine Or.inr fun j c hc hcid => ?_
    by_contra hlt
    rw [hcs,List.getElem?_append_left (by omega)] at hc
    have hmem : c ∈ entries w.server.clients := by
      rw [hcs]
      exact mem_entries_iff.mpr ⟨j,by rw [List.getElem?_append_left (by omega)]; exact hc⟩
    have hconn := hkept c (List.mem_of_getElem? hc)
    rw [h c hmem hcid] at hconn
    cases hconn
  | @moved w w' kept gap hflag hnone hsub hgap hs hn hl =>
    left
    simp [hs,hnone]
  | @disconnected w w1 first n i c conn hi hconn hs hn hfds hl =>
    have hcs : (w1.note (.callback (.disconnect c.id))).server.clients =
        w.server.clients.set i (some { c with conn := conn }) := by
      rw [World.note_toProcess,hs]
    refine h.imp (fun hnone => ?_) fun h j d hd hdid => ?_
    · rw [hcs]
      exact none_mem_drop_succ hi hnone
    · rw [hcs] at hd
      obtain ⟨e,he,hid⟩ := set_carried hi hd rfl
      exact h j e he (hid.symm.trans hdid)
  | @erased w first i =>
    have hlen : w.server.clients.length = i := by simpa using hx.2.length
    have hgone : none ∉ w.server.clients.drop i := by
      rw [List.drop_of_length_le (by omega)]
      exact List.not_mem_nil
    intro c hc hcid
    obtain ⟨j,hj⟩ := mem_entries_iff.mp hc
    have hj : (w.server.clients.take first)[j]? = some (some c) := hj
    rw [List.getElem?_take] at hj
    by_cases hlt : j < first
    · rw [if_pos hlt] at hj
      exact absurd (h.resolve_left hgone j c hj hcid) (by omega)
    · rw [if_neg hlt] at hj
      cases hj
  | @shut w w' a new ha hs hn hl hnew hf =>
    have h : ∀ c ∈ entries w.server.clients, c.id ≠ id := h
    change ∀ c ∈ entries w'.server.clients, c.id ≠ id
    rw [hs]
    exact h
  | die hp hl hnew => trivial

theorem announced_length {l l' : List Observation} (h : l <+: l') :
    (announced l).length ≤ (announced l').length := by
  obtain ⟨new,rfl⟩ := h
  rw [announced,announced,observed_append,List.length_append]
  omega

theorem Drained.moves {id : ClientId} {x y : Point × World} (hx : Passed x)
    (hm : ReflTransGen Move x y) (hfew : Few y.2.log)
    (hid : id.toNat ≤ (announced x.2.log).length) (h : Drained id x) : Drained id y := by
  obtain ⟨env,hx⟩ := hx
  induction hm with
  | refl => exact h
  | @tail y z hxy hm ih =>
    have hfew' := hfew.restrict hm.log
    have hy : Passed y := ⟨env,hx.trans hxy⟩
    refine (ih hfew').move hm hy.base fun hp => ?_
    have hnext := (hy.numbered hfew').next hm.alive
    have hle := announced_length (moves_log hxy)
    rintro rfl
    omega

/-! One read of a client in a pass. -/

def Single : Point × World → Prop
  | (.events es,w) => ∀ i c, Leads w.server.clients i c → (es.map (·.socketFd)).count c.fd ≤ 1
  | _ => True

theorem Single.dead {α : Type} {p : Point} {w : World} {r : Except Halt α} (h : Single (p,w)) :
    Single (p.orDead r,w) := by
  cases r with
  | ok a => exact h
  | error e => trivial

theorem Reachable.single {x : Point × World} (hx : Reachable x) : Single x := by
  refine hx.induct (fun env => trivial) fun x y hx hs h => ?_
  cases hs with
  | @action p w r hp ha =>
    apply Single.dead
    cases p with
    | events es =>
      intro i d hd
      obtain ⟨c,hc,hfd⟩ := hd.same ha.follows
      rw [← hfd]
      exact h i c hc
    | _ => trivial
  | @event w e es hrun =>
    refine Single.dead (p := .events es) fun i d hd => ?_
    obtain ⟨c,hc,hfd⟩ := hd.same (Server.handleEvent_cases e w).follows
    have hcount := h i c hc
    rw [List.map_cons,List.count_cons] at hcount
    rw [← hfd]
    omega
  | @poll w w' es hrun =>
    intro i c hc
    obtain ⟨pfds,n,-,hfds,rfl,hcs⟩ := pollClients_result hrun
    rw [hcs] at hc
    have hheard : Heard w.server.clients w.server.pollGroup := hx.passed.audible
    have hcount := (result_sockets pfds).count_le c.fd
    rw [hfds] at hcount
    exact hcount.trans (hheard.once i c hc)
  | opening => exact Single.dead (p := .top) trivial
  | pending hrun => exact Single.dead (p := .accepting) trivial
  | accept hrun => exact Single.dead (p := .accepting) trivial
  | disconnect => exact Single.dead (p := .removing _ _ _) trivial
  | erase => exact Single.dead (p := .top) trivial
  | closing => exact Single.dead (p := .done) trivial
  | _ => trivial

/-- A call of ::recv that returns data, if at all, while `ec_` is set. -/
def Observation.spoils (o : Observation) : Prop :=
  ∃ fd size flags n, ∃ data, o.event = .sys (.recv fd size flags n data) ∧
    (0 < n → o.state.server.ec.isSet = true)

open Server in
inductive Read (e : SocketStatusInfo) (w w' : World) : Prop where
  | idle {new : List Observation} (hlog : w'.log = w.log++new)
      (hb : ∀ id, brought id new = []) (hp : ∀ id, passedOn id new = []) : Read e w w'
  | passed {i : Nat} {c : ClientInfo} {bytes : List Byte} {new : List Observation}
      (hf : find (fun c => c.fd == e.socketFd) w.server.clients = .found i c)
      (hopen : c.conn.socket ≠ 0) (hlog : w'.log = w.log++new)
      (hb : ∀ id, brought id new = if id = c.id then bytes else [])
      (hp : ∀ id, passedOn id new = if id = c.id then bytes else []) : Read e w w'
  | dropped {i j : Nat} {c d : ClientInfo} {bytes : List Byte} {new : List Observation}
      (hf : find (fun c => c.fd == e.socketFd) w.server.clients = .found i c)
      (hopen : c.conn.socket ≠ 0) (hlog : w'.log = w.log++new)
      (hb : ∀ id, brought id new = if id = c.id then bytes else [])
      (hp : ∀ id, passedOn id new = [])
      (hec : ∀ o ∈ new, ∀ id, o.brings id ≠ [] → o.spoils)
      (hd : find (fun d => d.id == c.id) w.server.clients = .found j d)
      (hcs : w'.server.clients = w.server.clients.set j (some { d with isConnected := false })) :
      Read e w w'

theorem brings_nothing (id : ClientId) (fd : Int) (size flags : Nat) (n : Int) (p : Process) :
    Observation.brings id ⟨.sys (.recv fd size flags n []),p⟩ = [] := ite_self _

open Server Net in
theorem handleEvent_read {e : SocketStatusInfo} {w : World} (hs : Sound w) :
    Read e w ((handleEvent e).run w).2 := by
  have hopened : ∀ {i : Nat} {c : ClientInfo} {size flags : Nat} {n : Int} {bytes : List Byte}
      {new : List Observation}, find (fun c => c.fd == e.socketFd) w.server.clients = .found i c →
      ((handleEvent e).run w).2.log =
        w.log++⟨.sys (.recv c.conn.socket size flags n bytes),w.toProcess⟩::new →
      c.conn.socket ≠ 0 :=
    fun hf hlog => (handleEvent_recv hf hlog fun id h => by cases h).1
  have hstay : Read e w w := .idle (List.append_nil _).symm (fun _ => rfl) fun _ => rfl
  have h := handleEvent_cases e w
  generalize (handleEvent e).run w = r at h hopened ⊢
  cases h with
  | ignored => exact hstay
  | crash => exact hstay
  | @hungUp i j c d hf hd => exact .idle (w.mark_log j d) (fun _ => rfl) fun _ => rfl
  | @rejected i j c d ec s hf hfds hcalls hd =>
    obtain hcalls | ⟨flags,n,bytes,hec,hcalls⟩ := hcalls
    · have hlog : (((putSys w s).withEc ec).mark j d).log = w.log++
          [⟨.marked d.id,(((putSys w s).withEc ec).mark j d).toProcess⟩] := by simp [hcalls]
      exact .idle hlog (fun _ => rfl) fun _ => rfl
    · have hlog : (((putSys w s).withEc ec).mark j d).log = w.log++
          ⟨.sys (.recv c.conn.socket Connection.maxBufferSize flags n bytes),w.toProcess⟩::
          [⟨.marked d.id,(((putSys w s).withEc ec).mark j d).toProcess⟩] := by simp [hcalls]
      have hopen := hopened hf hlog
      have hbrought : ∀ id, brought id
          [⟨.sys (.recv c.conn.socket Connection.maxBufferSize flags n bytes),w.toProcess⟩,
          ⟨.marked d.id,(((putSys w s).withEc ec).mark j d).toProcess⟩] =
          if id = c.id then bytes else [] := by
        intro id
        rw [← brings_recv hs (mem_of_getElem? (find_found hf).1) hopen id]
        exact List.append_nil _
      refine .dropped hf hopen hlog hbrought (fun _ => rfl) ?_ hd rfl
      refine List.forall_mem_cons.mpr ⟨fun _ _ => ⟨_,_,_,_,_,rfl,hec⟩,?_⟩
      exact List.forall_mem_singleton.mpr fun id hne => absurd rfl hne
  | @closed i j flags c d ec s hf hopen hfds hcalls hd =>
    have hlog : ((((putSys w s).withClient i { c with conn := {} }).withEc ec).mark j d).log =
        w.log++[⟨.sys (.recv c.conn.socket Connection.maxBufferSize flags 0 []),w.toProcess⟩,
        ⟨.sys (.close c.conn.socket),w.toProcess⟩,⟨.marked d.id,
          ((((putSys w s).withClient i { c with conn := {} }).withEc ec).mark j d).toProcess⟩] := by
      simp [hcalls]
    refine .idle hlog (fun id => ?_) fun _ => rfl
    rw [brought,List.flatMap_cons,brings_nothing]
    rfl
  | @delivered i flags c bytes s hf hopen hne hsize hec hfds hcalls =>
    have hlog : ((putSys w s).note (.callback (.dataReceive c.id (.ofList bytes)))).log =
        w.log++[⟨.sys (.recv c.conn.socket Connection.maxBufferSize flags bytes.length bytes),
          w.toProcess⟩,⟨.callback (.dataReceive c.id (.ofList bytes)),
          (putSys w s).toProcess⟩] := by simp [hcalls]
    have hsmall : bytes.length < 2^64 := Nat.lt_of_le_of_lt hsize (by decide)
    have hpassed : ∀ id, passedOn id [⟨.sys (.recv c.conn.socket Connection.maxBufferSize flags
        bytes.length bytes),w.toProcess⟩,⟨.callback (.dataReceive c.id (.ofList bytes)),
        (putSys w s).toProcess⟩] = if id = c.id then bytes else [] := by
      intro id
      simp [passedOn,Observation.passes,Buffer.data_ofList hsmall,eq_comm]
    refine .passed hf hopen hlog (fun id => ?_) hpassed
    rw [← brings_recv hs (mem_of_getElem? (find_found hf).1) hopen id]
    exact List.append_nil _
  | @cut i c s hf hcalls =>
    obtain hcalls | ⟨flags,hcalls⟩ := hcalls
    · exact .idle (by simp [hcalls]; rfl) (fun _ => rfl) fun _ => rfl
    · have hlog : (putSys w s).log = w.log++
          [⟨.sys (.recv c.conn.socket Connection.maxBufferSize flags 0 []),w.toProcess⟩] := by
        simp [hcalls]
      refine .idle hlog (fun id => ?_) fun _ => rfl
      rw [brought,List.flatMap_cons,brings_nothing]
      rfl

/-- Bytes came for the client while `ec_` was set. -/
def Spoilt (id : ClientId) (log : List Observation) : Prop :=
  ∃ o ∈ log, o.brings id ≠ [] ∧ o.spoils

/-- All bytes were passed on, or the last ones were not and no more will be read. -/
def Inflow (id : ClientId) (x : Point × World) : Prop :=
  passedOn id x.2.log = brought id x.2.log ∨
  (passedOn id x.2.log <+: brought id x.2.log ∧ Spoilt id x.2.log ∧
    id.toNat ≤ (announced x.2.log).length ∧ Drained id x)

theorem Inflow.starts {id : ClientId} {x : Point × World} (h : Inflow id x) :
    passedOn id x.2.log <+: brought id x.2.log := by
  obtain heq | ⟨hpre,-⟩ := h
  · rw [heq]
  · exact hpre

theorem brought_append (id : ClientId) (l new : List Observation) :
    brought id (l++new) = brought id l++brought id new := List.flatMap_append

theorem passedOn_append (id : ClientId) (l new : List Observation) :
    passedOn id (l++new) = passedOn id l++passedOn id new := List.flatMap_append

theorem Inflow.unread {id : ClientId} {x y : Point × World} (h : Inflow id x) (hx : Passed x)
    (hm : ReflTransGen Move x y) (hfew : Few y.2.log)
    (hb : brought id y.2.log = brought id x.2.log)
    (hp : passedOn id y.2.log = passedOn id x.2.log) : Inflow id y := by
  unfold Inflow
  rw [hb,hp]
  refine h.imp (fun h => h) fun ⟨hpre,⟨o,ho,hs⟩,hid,hdrained⟩ => ?_
  have hlog := moves_log hm
  exact ⟨hpre,⟨o,hlog.subset ho,hs⟩,hid.trans (announced_length hlog),
    hdrained.moves hx hm hfew hid⟩

open Server in
theorem Drained.marked {e : SocketStatusInfo} {es : PollResult} {w w' : World} {i j : Nat}
    {c d : ClientInfo} (hnum : (ids w).Nodup) (hsingle : Single (.events (e::es),w))
    (hf : find (fun c => c.fd == e.socketFd) w.server.clients = .found i c)
    (hopen : c.conn.socket ≠ 0)
    (hd : find (fun d => d.id == c.id) w.server.clients = .found j d)
    (hcs : w'.server.clients = w.server.clients.set j (some { d with isConnected := false })) :
    Drained c.id (.events es,w') := by
  obtain ⟨hleads,hfd⟩ := Leads.of_find hf hopen
  have hj := (find_found hd).1
  have hid : d.id = c.id := by simpa using (find_found hd).2
  have hdc : d = c := List.inj_on_of_nodup_map hnum (mem_of_getElem? hj)
    (mem_of_getElem? hleads.entry) hid
  have hfree : c.fd ∉ es.map (·.socketFd) := by
    have hcount := hsingle i c hleads
    rw [List.map_cons,List.count_cons,if_pos (by simp [hfd])] at hcount
    exact List.count_eq_zero.mp (by omega)
  intro x hx hxid
  rw [hcs] at hx
  obtain ⟨l,r,hl,hr⟩ := entries_set hj { d with isConnected := false }
  have hids : (entries (w.server.clients.set j (some { d with isConnected := false }))).map (·.id) =
      ids w := map_entries_set hj rfl
  have hnodup := hids ▸ hnum
  have hxd : x = { d with isConnected := false } :=
    List.inj_on_of_nodup_map hnodup hx (by rw [hr]; simp) (hxid.trans hid.symm)
  rw [hxd,hdc]
  exact ⟨rfl,fun _ => hfree⟩

open Server in
/-- What an event does to the inflow of a client. -/
theorem Inflow.event {e : SocketStatusInfo} {es : PollResult} {w : World} {y : Point × World}
    {id : ClientId} (hx : Passed (.events (e::es),w)) (hsingle : Single (.events (e::es),w))
    (hm : ReflTransGen Move (.events (e::es),w) y) (hfew : Few y.2.log)
    (hy : y.1 = .events es ∨ y.1 = .dead) (hread : Read e w y.2)
    (h : Inflow id (.events (e::es),w)) : Inflow id y := by
  have hnum := hx.numbered (hfew.restrict (moves_log hm))
  have hsilent : ∀ {new : List Observation}, y.2.log = w.log++new → brought id new = [] →
      passedOn id new = [] → Inflow id y := by
    intro new hlog hb hp
    refine h.unread hx hm hfew ?_ ?_
    · rw [hlog,brought_append,hb,List.append_nil]
    · rw [hlog,passedOn_append,hp,List.append_nil]
  -- a client that is read here was not drained
  have hwhole : ∀ {i : Nat} {c : ClientInfo},
      find (fun c => c.fd == e.socketFd) w.server.clients = .found i c → c.conn.socket ≠ 0 →
      id = c.id → passedOn id w.log = brought id w.log := by
    intro i c hf hopen hid
    refine h.resolve_right fun ⟨_,_,_,hdrained⟩ => ?_
    obtain ⟨hleads,hfd⟩ := Leads.of_find hf hopen
    have hfree := (hdrained c (mem_of_getElem? hleads.entry) hid.symm).2 hopen
    rw [hfd] at hfree
    exact hfree List.mem_cons_self
  cases hread with
  | idle hlog hb hp => exact hsilent hlog (hb id) (hp id)
  | @passed i c bytes new hf hopen hlog hb hp =>
    by_cases hid : id = c.id
    · left
      rw [hlog,passedOn_append,brought_append,hwhole hf hopen hid,hb,hp]
    · exact hsilent hlog ((hb id).trans (if_neg hid)) ((hp id).trans (if_neg hid))
  | @dropped i j c d bytes new hf hopen hlog hb hp hec hd hcs =>
    by_cases hid : id = c.id
    · have heq := hwhole hf hopen hid
      by_cases hnil : bytes = []
      · left
        rw [hlog,passedOn_append,brought_append,heq,hb,hp,hnil,ite_self]
      · right
        have hc := mem_of_getElem? (find_found hf).1
        refine ⟨?_,?_,?_,?_⟩
        · rw [hlog,passedOn_append,brought_append,heq,hp,List.append_nil]
          exact List.prefix_append _ _
        · have hne : brought id new ≠ [] := by
            rw [hb,if_pos hid]
            exact hnil
          obtain ⟨o,ho,hbr⟩ : ∃ o ∈ new, o.brings id ≠ [] := by
            by_contra hall
            push Not at hall
            exact hne (List.flatMap_eq_nil_iff.mpr hall)
          exact ⟨o,hlog ▸ List.mem_append_right _ ho,hbr,hec o ho id hbr⟩
        · rw [hid]
          exact (hnum.id_le (nomatch ·) (List.mem_map_of_mem hc)).trans
            (announced_length (moves_log hm))
        · obtain ⟨p,w'⟩ := y
          obtain rfl | rfl := hy
          · rw [hid]
            exact Drained.marked (hnum.nodup (nomatch ·)) hsingle hf hopen hd hcs
          · trivial
    · exact hsilent hlog ((hb id).trans (if_neg hid)) (hp id)

theorem Reachable.inflow {x : Point × World} (hx : Reachable x) (hfew : Few x.2.log)
    (id : ClientId) : Inflow id x := by
  refine hx.induct (I := fun x => Few x.2.log → Inflow id x) (fun env _ => Or.inl rfl) ?_ hfew
  intro x y hx hs ih hfew
  have hbase := hx.passed.base
  have hmoves := hs.moves hbase
  have h := ih (hfew.restrict (moves_log hmoves))
  have hunread : (∃ new, y.2.log = x.2.log++new ∧ ∀ o ∈ new, o.event.isUnread) → Inflow id y := by
    rintro ⟨new,hlog,hnew⟩
    refine h.unread hx.passed hmoves hfew ?_ ?_
    · rw [hlog,brought_unread hnew]
    · rw [hlog,passedOn_unread hnew]
  by_cases hevent : ∃ es, x.1 = .events es
  · obtain ⟨es,hes⟩ := hevent
    cases hs with
    | action hp ha =>
      obtain ⟨new,hlog,hnew⟩ := ha.aside
      exact hunread ⟨new,hlog,fun o ho => (hnew o ho).unread⟩
    | sweep => exact hunread ⟨_,rfl,List.forall_mem_singleton.mpr trivial⟩
    | @event w e es hrun =>
      refine h.event hx.passed hx.single hmoves hfew ?_ (handleEvent_read hbase.1)
      cases ((Server.handleEvent e).run w).1 with
      | ok b => exact .inl rfl
      | error e => exact .inr rfl
    | _ => cases hes
  · exact hunread ((hs.piece hbase).unread fun es he => hevent ⟨es,he⟩)

/-- The data handler is given for a client a prefix of what ::recv returned on its socket, and
all of it unless something came while `ec_` was set. -/
theorem Environment.inbound_integrity (env : Environment) (fuel : Nat)
    (hfew : Few (env.log fuel)) (id : ClientId) :
    passedOn id (env.log fuel) <+: brought id (env.log fuel) ∧
      ((∀ o ∈ env.log fuel, o.brings id ≠ [] → o.state.server.ec.isSet = false) →
        passedOn id (env.log fuel) = brought id (env.log fuel)) := by
  obtain ⟨p,hp,-⟩ := env.reachable fuel
  have h : Inflow id (p,(env.run fuel).2) := hp.inflow hfew id
  refine ⟨h.starts,fun hclear => ?_⟩
  refine h.resolve_right fun ⟨_,⟨o,ho,hne,fd,size,flags,n,data,hev,hset⟩,_,_⟩ => ?_
  have hdata : data ≠ [] := by
    rintro rfl
    refine hne ?_
    rw [Observation.brings,hev]
    exact ite_self _
  obtain ⟨ec,e,hapt⟩ := env.recorded Apt.recorded (fun _ o ho => nomatch ho) fuel
  obtain ⟨-,-,-,-,hn | ⟨-,hnil⟩⟩ := hapt o ho _ hev
  · have hpos := List.length_pos_of_ne_nil hdata
    have hsome := hset (by omega)
    rw [hclear o ho hne] at hsome
    cases hsome
  · exact hdata hnil

theorem Environment.inbound_integrity_broadcast :
    passedOn 1 (broadcast.log 5) <+: brought 1 (broadcast.log 5) ∧
      ((∀ o ∈ broadcast.log 5, o.brings 1 ≠ [] → o.state.server.ec.isSet = false) →
        passedOn 1 (broadcast.log 5) = brought 1 (broadcast.log 5)) :=
  broadcast.inbound_integrity 5 (by decide +kernel) 1

/-- The three bytes of the first client are passed on. -/
example : passedOn 1 (Environment.broadcast.log 5) = [7,8,9] := by decide +kernel

end Yonaa
