import Yonaa.Crashes
import Yonaa.Polling

/-! What one call of `handle_incoming_messages_` does for the clients: each of them that ::poll
reported is dealt with once, whatever the handlers do in between. -/
namespace Yonaa

def Observation.reads (fd : Int) (o : Observation) : Bool :=
  match o.event with
  | .sys (.recv fd' _ _ _ _) => fd' == fd
  | _ => false

def reads (fd : Int) (log : List Observation) : Nat := log.countP (Observation.reads fd)

theorem reads_append (fd : Int) (l l' : List Observation) :
    reads fd (l++l') = reads fd l+reads fd l' := List.countP_append

theorem reads_unread {fd : Int} {new : List Observation} (h : ∀ o ∈ new, o.event.isUnread) :
    reads fd new = 0 := by
  refine List.countP_eq_zero.mpr fun o ho hread => ?_
  have hun := h o ho
  unfold Observation.reads at hread
  split at hread
  next he => rw [he] at hun; exact hun
  next => cases hread

/-- What directly follows a ::recv of the bytes for the client with the id and the socket fd:
they are passed on as they are, or the client is marked, its connection closed before where the
peer has closed it. -/
inductive Attended (fd : Int) (id : ClientId) (bytes : List Byte) : List Observation → Prop
  | passed {p : Process} {rest : List Observation} (hne : bytes ≠ []) :
      Attended fd id bytes (⟨.callback (.dataReceive id (.ofList bytes)),p⟩::rest)
  | marked {p : Process} {rest : List Observation} : Attended fd id bytes (⟨.marked id,p⟩::rest)
  | closed {p p' : Process} {rest : List Observation} (hempty : bytes = []) :
      Attended fd id bytes (⟨.sys (.close fd),p⟩::⟨.marked id,p'⟩::rest)

theorem Attended.append {fd : Int} {id : ClientId} {bytes : List Byte} {rest : List Observation}
    (h : Attended fd id bytes rest) (l : List Observation) : Attended fd id bytes (rest++l) := by
  cases h with
  | passed hne => exact .passed hne
  | marked => exact .marked
  | closed hempty => exact .closed hempty

/-- The status tells of an error or a hang-up. -/
def SocketStatusInfo.broken (e : SocketStatusInfo) : Bool :=
  e.status &&& (SocketStatus.error ||| SocketStatus.hungUp) != 0

def SocketStatusInfo.readable (e : SocketStatusInfo) : Bool :=
  e.status &&& SocketStatus.readable != 0

/-- What the events new do for the client with the id, whose socket e reports on: it is marked
after an error; otherwise it is read from once, if it is readable, and directly afterwards the
bytes read are passed on or it is marked. -/
structure Dealt (e : SocketStatusInfo) (id : ClientId) (new : List Observation) : Prop where
  broken : e.broken = true → ∃ o ∈ new, o.event = .marked id
  readable : e.broken = false → e.readable = true → ∃ pre flags n bytes p post,
    new = pre++⟨.sys (.recv e.socketFd Connection.maxBufferSize flags n bytes),p⟩::post ∧
    Attended e.socketFd id bytes post
  reads : reads e.socketFd new = if e.broken = false ∧ e.readable = true then 1 else 0

theorem Dealt.frame {e : SocketStatusInfo} {id : ClientId} {new l r : List Observation}
    (h : Dealt e id new) (hl : Yonaa.reads e.socketFd l = 0)
    (hr : Yonaa.reads e.socketFd r = 0) : Dealt e id (l++(new++r)) := by
  refine ⟨fun hb => ?_,fun hb hread => ?_,?_⟩
  · obtain ⟨o,ho,he⟩ := h.broken hb
    exact ⟨o,List.mem_append_right _ (List.mem_append_left _ ho),he⟩
  · obtain ⟨pre,flags,n,bytes,p,post,rfl,hset⟩ := h.readable hb hread
    exact ⟨l++pre,flags,n,bytes,p,post++r,by simp,hset.append r⟩
  · rw [reads_append,reads_append,hl,hr,h.reads]
    omega

theorem Dealt.read {e : SocketStatusInfo} {id : ClientId} {flags : Nat} {n : Int}
    {bytes : List Byte} {p : Process} {rest : List Observation} (hb : e.broken = false)
    (hr : e.readable = true) (hrest : ∀ o ∈ rest, ∀ fd, o.reads fd = false)
    (hset : Attended e.socketFd id bytes rest) :
    Dealt e id (⟨.sys (.recv e.socketFd Connection.maxBufferSize flags n bytes),p⟩::rest) ∧
    ∀ fd ≠ e.socketFd, Yonaa.reads fd
      (⟨.sys (.recv e.socketFd Connection.maxBufferSize flags n bytes),p⟩::rest) = 0 := by
  have hzero : ∀ fd, Yonaa.reads fd rest = 0 := fun fd =>
    List.countP_eq_zero.mpr fun o ho => by simp [hrest o ho fd]
  refine ⟨⟨fun h => ?_,fun _ _ => ⟨[],flags,n,bytes,p,rest,rfl,hset⟩,?_⟩,fun fd hne => ?_⟩
  · rw [hb] at h
    cases h
  · rw [if_pos ⟨hb,hr⟩,← List.singleton_append,reads_append,hzero]
    simp [Yonaa.reads,Observation.reads]
  · rw [← List.singleton_append,reads_append,hzero]
    simpa [Yonaa.reads,Observation.reads] using hne.symm

theorem Dealt.silent {e : SocketStatusInfo} {id : ClientId} {new : List Observation}
    (hs : e.status = 0) (h : Yonaa.reads e.socketFd new = 0) : Dealt e id new := by
  have hb : e.broken = false := by simp [SocketStatusInfo.broken,hs]
  have hr : e.readable = false := by simp [SocketStatusInfo.readable,hs]
  exact ⟨by simp [hb],by simp [hr],by simp [h,hr]⟩

/-! What a pass leaves as it was. -/

/-- The entries of cs' are those of cs, but for flags and for the connections in hit. -/
structure Remains (hit : List Int) (cs cs' : List (Option ClientInfo)) : Prop where
  keys : fdKeys cs' = fdKeys cs
  entry : ∀ d ∈ entries cs', ∃ c ∈ entries cs, c.id = d.id ∧ c.fd = d.fd ∧
    (d.fd ∉ hit → d.conn = c.conn)

theorem Remains.refl (hit : List Int) (cs : List (Option ClientInfo)) : Remains hit cs cs :=
  ⟨rfl,fun d hd => ⟨d,hd,rfl,rfl,fun _ => rfl⟩⟩

theorem Remains.trans {hit : List Int} {cs cs' cs'' : List (Option ClientInfo)}
    (h : Remains hit cs cs') (h' : Remains hit cs' cs'') : Remains hit cs cs'' := by
  refine ⟨h'.keys.trans h.keys,fun d hd => ?_⟩
  obtain ⟨c',hc',hid',hfd',hconn'⟩ := h'.entry d hd
  obtain ⟨c,hc,hid,hfd,hconn⟩ := h.entry c' hc'
  exact ⟨c,hc,hid.trans hid',hfd.trans hfd',fun hd => (hconn' hd).trans (hconn (hfd' ▸ hd))⟩

theorem Remains.set {hit : List Int} {cs : List (Option ClientInfo)} {i : Nat} {c c' : ClientInfo}
    (hi : cs[i]? = some (some c)) (hid : c'.id = c.id) (hfd : c'.fd = c.fd)
    (hconn : c.fd ∉ hit → c'.conn = c.conn) : Remains hit cs (cs.set i (some c')) := by
  refine ⟨keys_set hi hfd,fun d hd => ?_⟩
  obtain rfl | hd := mem_entries_set hi hd
  · exact ⟨c,mem_of_getElem? hi,hid.symm,hfd.symm,fun h => hconn (hfd ▸ h)⟩
  · exact ⟨d,hd,rfl,rfl,fun _ => rfl⟩

theorem Kept.remains {w w' : World} (h : Kept w w') (hit : List Int) :
    Remains hit w.server.clients w'.server.clients := by
  refine ⟨h.keys,fun d hd => ?_⟩
  obtain ⟨j,hj⟩ := mem_entries_iff.mp hd
  obtain ⟨c,hc,hid,hfd,hconn,-⟩ := h.entry j d hj
  exact ⟨c,mem_of_getElem? hc,hid.symm,hfd.symm,fun _ => hconn⟩

theorem ApiStep.unread {w w' : World} (h : ApiStep w w') :
    ∃ new, w'.log = w.log++new ∧ ∀ o ∈ new, o.event.isUnread := by
  cases h with
  | quiet hq =>
    obtain ⟨new,hlog,hnew⟩ := hq.log
    refine ⟨new,hlog,fun o ho => ?_⟩
    have hin := hnew o ho
    unfold Event.isUnread
    split
    next he => simp [he,Event.isInner] at hin
    next he => simp [he,Event.isInner] at hin
    next => trivial
  | marked hi => exact ⟨_,w.mark_log _ _,List.forall_mem_singleton.mpr trivial⟩
  | stopped => exact ⟨_,w.halted_log,List.forall_mem_singleton.mpr trivial⟩

theorem During.remains {w w' : World} (h : During w w') (hit : List Int) :
    Remains hit w.server.clients w'.server.clients ∧
    ∃ new, w'.log = w.log++new ∧ ∀ o ∈ new, o.event.isUnread := by
  induction h with
  | refl => exact ⟨.refl _ _,[],(List.append_nil _).symm,List.forall_mem_nil _⟩
  | tail _ hs ih =>
    obtain ⟨hrem,new,hlog,hnew⟩ := ih
    obtain ⟨new',hlog',hnew'⟩ := hs.unread
    refine ⟨hrem.trans (hs.kept.remains hit),new++new',?_,List.forall_mem_append.mpr ⟨hnew,hnew'⟩⟩
    rw [hlog',hlog,List.append_assoc]

namespace Server
open Prog Net

/-! One event. -/

theorem Handled.remains {e : SocketStatusInfo} {w : World} {r : Except Halt Bool × World}
    (h : Handled e w r) : Remains [e.socketFd] w.server.clients r.2.server.clients := by
  have hmark : ∀ {cs : List (Option ClientInfo)} {j : Nat} {d : ClientInfo},
      cs[j]? = some (some d) →
      Remains [e.socketFd] cs (cs.set j (some { d with isConnected := false })) :=
    fun hj => .set hj rfl rfl fun _ => rfl
  cases h with
  | ignored => exact .refl _ _
  | crash => exact .refl _ _
  | hungUp hf hd => exact hmark (find_found hd).1
  | rejected hf hfds hcalls hd => exact hmark (find_found hd).1
  | @closed i j flags c d ec s hf hopen hfds hcalls hd =>
    obtain ⟨hi,hfd⟩ := find_found hf
    have hclosed : Remains [e.socketFd] w.server.clients
        (w.server.clients.set i (some { c with conn := {} })) :=
      .set hi rfl rfl fun hout => absurd (List.mem_singleton.mpr (by simpa using hfd)) hout
    exact hclosed.trans (hmark (find_found hd).1)
  | delivered hf hopen hne hsize hec hfds hcalls => exact .refl _ _
  | cut hf hcalls => exact .refl _ _

theorem removeClient_log (id : ClientId) (w : World) :
    w.log <+: ((removeClient id).run w).2.log := by
  have h := removeClient_cases id w
  generalize (removeClient id).run w = r at h ⊢
  cases h with
  | missing h => exact List.prefix_refl _
  | crash h => exact List.prefix_refl _
  | marked h => exact ⟨_,rfl⟩

theorem handleEvent_receives {e : SocketStatusInfo} {w w' : World} {i : Nat} {c : ClientInfo}
    {b : Bool} (hf : find (fun c => c.fd == e.socketFd) w.server.clients = .found i c)
    (hopen : c.conn.socket ≠ 0) (hb : e.broken = false) (hr : e.readable = true)
    (h : (handleEvent e).run w = (.ok b,w')) : ∃ flags n data,
      w.log++[⟨.sys (.recv c.conn.socket Connection.maxBufferSize flags n data),w.toProcess⟩] <+:
        w'.log := by
  have hconn : c.conn.isConnected = true := by simpa [Connection.isConnected] using hopen
  have hmax : Connection.maxBufferSize ≠ 0 := by decide
  obtain ⟨flags,hrecv⟩ := Connection.receive_open w.server.ec 0 hconn hmax (sysPart w)
  unfold handleEvent clientInfoFromNativeSocket at h
  rw [bind_ok (lookup_found hf)] at h
  dsimp only at h
  rw [if_neg (by simpa [SocketStatusInfo.broken] using hb),
    if_pos (by simpa [SocketStatusInfo.readable] using hr),run_server_bind] at h
  obtain ⟨x,w1,hsys,h⟩ := of_bind_ok h
  have hlog1 : ∃ n data, w.log++[⟨.sys (.recv c.conn.socket Connection.maxBufferSize flags n data),
      w.toProcess⟩] <+: w1.log := by
    generalize hrun : (c.conn.receive Connection.maxBufferSize w.server.ec).run (sysPart w) = r
      at hrecv
    cases hrecv with
    | @data bytes s hne hsize hcap hfds hcalls hans =>
      rw [sys_ok hrun] at hsys
      cases hsys
      exact ⟨bytes.length,bytes,[],by simp [hcalls]⟩
    | failed er hfds hcalls hans =>
      rw [sys_ok hrun] at hsys
      cases hsys
      exact ⟨-1,[],[],by simp [hcalls]⟩
    | closed er hfds hcalls hans =>
      rw [sys_ok hrun] at hsys
      cases hsys
      exact ⟨0,[],[⟨.sys (.close c.conn.socket),w.toProcess⟩],by simp [hcalls]⟩
    | closing hfds hcalls hans =>
      rw [sys_error hrun] at hsys
      cases hsys
    | cut hs =>
      rw [sys_error hrun] at hsys
      cases hsys
  obtain ⟨n,data,hlog1⟩ := hlog1
  refine ⟨flags,n,data,hlog1.trans ?_⟩
  rw [bind_ok (run_setClient _ _ _),bind_ok (run_setEc _ _)] at h
  split at h
  · obtain ⟨u,w2,hrem,h⟩ := of_bind_ok h
    cases h
    have hle := removeClient_log c.id ((w1.withClient i { c with conn := x.2.1 }).withEc x.2.2)
    rw [hrem] at hle
    exact hle
  · cases h
    exact ⟨_,rfl⟩

/-- A readable event of an open connection. -/
theorem handleEvent_attended {e : SocketStatusInfo} {w w' : World} {i : Nat} {c : ClientInfo}
    {b : Bool} (hf : find (fun c => c.fd == e.socketFd) w.server.clients = .found i c)
    (hopen : c.conn.socket ≠ 0) (hsock : c.conn.socket = c.fd) (hb : e.broken = false)
    (hr : e.readable = true) (h : (handleEvent e).run w = (.ok b,w')) :
    ∃ new, w'.log = w.log++new ∧ Dealt e c.id new ∧ ∀ fd ≠ e.socketFd, reads fd new = 0 := by
  have hfd : c.fd = e.socketFd := by simpa using (find_found hf).2
  obtain ⟨flags,n,data,hrecv⟩ := handleEvent_receives hf hopen hb hr h
  have hread : ∀ (flags : Nat) (n : Int) (data : List Byte) (rest : List Observation),
      w'.log = w.log++⟨.sys (.recv c.conn.socket Connection.maxBufferSize flags n data),
        w.toProcess⟩::rest → (∀ o ∈ rest, ∀ fd, o.reads fd = false) →
      Attended c.conn.socket c.id data rest → ∃ new, w'.log = w.log++new ∧
        Dealt e c.id new ∧ ∀ fd ≠ e.socketFd, reads fd new = 0 := by
    intro flags n data rest hlog hrest hset
    rw [hsock.trans hfd] at hlog hset
    exact ⟨_,hlog,Dealt.read hb hr hrest hset⟩
  have hnone : ∀ {l : List Observation}, w'.log = w.log++l →
      (∀ o ∈ l, o.event.isAside) → False := by
    intro l hl haside
    rw [hl] at hrecv
    obtain ⟨t,ht⟩ := hrecv
    rw [List.append_assoc] at ht
    have heq := List.append_cancel_left ht
    have hin := haside ⟨.sys (.recv c.conn.socket Connection.maxBufferSize flags n data),
      w.toProcess⟩ (by rw [← heq]; simp)
    exact hin
  have hcases := handleEvent_cases e w
  rw [h] at hcases
  cases hcases with
  | ignored => exact (hnone (List.append_nil _).symm (List.forall_mem_nil _)).elim
  | hungUp hf' hd => exact (hnone (w.mark_log _ _) (List.forall_mem_singleton.mpr trivial)).elim
  | @rejected i' j c' d ec s hf' hfds hcalls hd =>
    cases hf.symm.trans hf'
    have hid : d.id = c.id := by simpa using (find_found hd).2
    obtain hcalls | ⟨flags,n,bytes,-,hcalls⟩ := hcalls
    · have hlog : (((putSys w s).withEc ec).mark j d).log = w.log++
          [⟨.marked d.id,(((putSys w s).withEc ec).mark j d).toProcess⟩] := by simp [hcalls]
      exact (hnone hlog (List.forall_mem_singleton.mpr trivial)).elim
    · refine hread flags n bytes [⟨.marked d.id,(((putSys w s).withEc ec).mark j d).toProcess⟩]
        (by simp [hcalls]) ?_ ?_
      · simp [Observation.reads]
      · rw [hid]
        exact .marked
  | @closed i' j flags c' d ec s hf' hopen' hfds hcalls hd =>
    cases hf.symm.trans hf'
    have hid : d.id = c.id := by simpa using (find_found hd).2
    refine hread flags 0 [] [⟨.sys (.close c.conn.socket),w.toProcess⟩,⟨.marked d.id,
      ((((putSys w s).withClient i { c with conn := {} }).withEc ec).mark j d).toProcess⟩]
      (by simp [hcalls]) ?_ ?_
    · simp [Observation.reads]
    · rw [hid]
      exact .closed rfl
  | @delivered i' flags c' bytes s hf' hopen' hne hsize hec hfds hcalls =>
    cases hf.symm.trans hf'
    refine hread flags bytes.length bytes [⟨.callback (.dataReceive c.id (.ofList bytes)),
      (putSys w s).toProcess⟩] (by simp [hcalls]) ?_ ?_
    · simp [Observation.reads]
    · exact .passed hne

theorem handleEvent_dealt {e : SocketStatusInfo} {w w' : World} {i : Nat} {c : ClientInfo}
    {b : Bool} (hf : find (fun c => c.fd == e.socketFd) w.server.clients = .found i c)
    (hopen : c.conn.socket ≠ 0) (hsock : c.conn.socket = c.fd)
    (h : (handleEvent e).run w = (.ok b,w')) : ∃ new, w'.log = w.log++new ∧
      Dealt e c.id new ∧ ∀ fd ≠ e.socketFd, reads fd new = 0 := by
  cases hb : e.broken with
  | true =>
    have hhup : e.status &&& (SocketStatus.error ||| SocketStatus.hungUp) ≠ 0 := by
      simpa [SocketStatusInfo.broken] using hb
    obtain ⟨j,d,hid,hr⟩ := handleEvent_hungUp hf hhup
    rw [hr] at h
    cases h
    have hun : ∀ fd, reads fd [⟨.marked d.id,(w.mark j d).toProcess⟩] = 0 := fun fd =>
      reads_unread (List.forall_mem_singleton.mpr trivial)
    refine ⟨_,w.mark_log j d,⟨fun _ => ?_,fun h => ?_,?_⟩,fun fd _ => hun fd⟩
    · exact ⟨_,List.mem_singleton.mpr rfl,by rw [hid]⟩
    · rw [hb] at h
      cases h
    · rw [hun,if_neg (by simp [hb])]
  | false =>
    cases hr : e.readable with
    | false =>
      rw [handleEvent_unreadable hf (by simpa [SocketStatusInfo.broken] using hb)
        (by simpa [SocketStatusInfo.readable] using hr)] at h
      cases h
      refine ⟨[],(List.append_nil _).symm,⟨fun h => ?_,fun _ h => ?_,?_⟩,fun fd _ => rfl⟩
      · rw [hb] at h
        cases h
      · rw [hr] at h
        cases h
      · rw [if_neg (by simp [hr])]
        rfl
    | true => exact handleEvent_attended hf hopen hsock hb hr h

/-! The loop. -/

/-- The sockets that events are still due for are open. -/
structure Awaited (es : PollResult) (cs : List (Option ClientInfo)) : Prop where
  noNull : none ∉ cs
  nodup : (es.map (·.socketFd)).Nodup
  known : ∀ e ∈ es, some e.socketFd ∈ fdKeys cs
  isOpen : ∀ c ∈ entries cs, c.fd ∈ es.map (·.socketFd) → c.conn.socket = c.fd ∧ c.fd ≠ 0

theorem Awaited.tail {e : SocketStatusInfo} {es : PollResult} {cs cs' : List (Option ClientInfo)}
    (h : Awaited (e::es) cs) (hr : Remains [e.socketFd] cs cs') : Awaited es cs' := by
  have hnodup := List.nodup_cons.mp h.nodup
  refine ⟨fun hn => h.noNull ?_,hnodup.2,fun e' he' => ?_,fun d hd hfd => ?_⟩
  · have hkey : none ∈ fdKeys cs' := none_mem_keys.mpr hn
    rw [hr.keys] at hkey
    exact none_mem_keys.mp hkey
  · rw [hr.keys]
    exact h.known e' (List.mem_cons_of_mem e he')
  · obtain ⟨c,hc,-,hcfd,hconn⟩ := hr.entry d hd
    have hne : d.fd ∉ [e.socketFd] := by
      intro hmem
      rw [List.mem_singleton.mp hmem] at hfd
      exact hnodup.1 hfd
    rw [hconn hne,← hcfd]
    exact h.isOpen c hc (List.mem_cons_of_mem _ (hcfd ▸ hfd))

theorem Awaited.find {e : SocketStatusInfo} {es : PollResult} {cs : List (Option ClientInfo)}
    (h : Awaited (e::es) cs) : ∃ i c, find (fun c => c.fd == e.socketFd) cs = .found i c ∧
      c ∈ entries cs ∧ c.fd = e.socketFd ∧ c.conn.socket = c.fd ∧ c.conn.socket ≠ 0 := by
  obtain ⟨c,hc,hfd⟩ := mem_fdKeys.mp (h.known e List.mem_cons_self)
  obtain ⟨i,hi⟩ := mem_entries_iff.mp hc
  obtain ⟨j,d,hf,-⟩ := find_of_mem (p := fun c => c.fd == e.socketFd) hi (by simpa using hfd)
    fun j _ hj => h.noNull (List.mem_of_getElem? hj)
  obtain ⟨hd,hdfd⟩ := find_found hf
  have hdfd : d.fd = e.socketFd := by simpa using hdfd
  have hmem := mem_of_getElem? hd
  obtain ⟨hsock,h0⟩ := h.isOpen d hmem (by rw [hdfd]; exact List.mem_cons_self)
  exact ⟨j,d,hf,hmem,hdfd,hsock,hsock ▸ h0⟩

theorem loadRunning_ok {w w' : World} {b : Bool} (h : loadRunning.run w = (.ok b,w')) :
    b = w'.server.running ∧ (b = true → w'.server = w.server ∧ w'.log = w.log) := by
  cases hs : w.stops with
  | nil =>
    rw [loadRunning_nil hs] at h
    cases h
  | cons s rest =>
    rw [loadRunning_cons hs] at h
    cases s with
    | false =>
      cases h
      exact ⟨rfl,fun _ => ⟨rfl,rfl⟩⟩
    | true =>
      cases h
      exact ⟨rfl,fun hb => by cases hb⟩

/-- What the loop adds to the history: every event is dealt with, and no other socket is
read from. -/
theorem handleEvents_dealt {es : PollResult} {w w' : World} (ha : Awaited es w.server.clients)
    (h : (handleEvents es).run w = (.ok (),w')) (hrun : w'.server.running = true) :
    ∃ new, w'.log = w.log++new ∧
      (∀ e ∈ es, ∃ c ∈ entries w.server.clients, c.fd = e.socketFd ∧ Dealt e c.id new) ∧
      ∀ fd ∉ es.map (·.socketFd), reads fd new = 0 := by
  induction es generalizing w with
  | nil =>
    cases h
    exact ⟨[],(List.append_nil _).symm,List.forall_mem_nil _,fun fd _ => rfl⟩
  | cons e es ih =>
    have hunfold : handleEvents (e::es) = loadRunning >>= fun b => if b = true then
        (handleEvent e >>= fun b => if b = true then runHandler >>= fun _ => handleEvents es
          else handleEvents es) else pure () := rfl
    rw [hunfold] at h
    obtain ⟨b,w1,hload,h⟩ := of_bind_ok h
    obtain ⟨hb,hsame⟩ := loadRunning_ok hload
    by_cases hgo : b = true
    · rw [if_pos hgo] at h
      obtain ⟨hserver,hlog⟩ := hsame hgo
      obtain ⟨b',w2,hevent,h⟩ := of_bind_ok h
      rw [← hserver] at ha
      obtain ⟨i,c,hf,hc,hcfd,hsock,h0⟩ := ha.find
      obtain ⟨new,hlog2,hdealt,hother⟩ := handleEvent_dealt hf h0 hsock hevent
      have hrem : Remains [e.socketFd] w1.server.clients w2.server.clients := by
        have hr := (handleEvent_cases e w1).remains
        rw [hevent] at hr
        exact hr
      -- the data handler, if it is called
      have hhandler : ∃ w3 rest, (handleEvents es).run w3 = (.ok (),w') ∧
          Remains [e.socketFd] w2.server.clients w3.server.clients ∧ w3.log = w2.log++rest ∧
          ∀ fd, reads fd rest = 0 := by
        by_cases hb' : b' = true
        · rw [if_pos hb'] at h
          obtain ⟨u,w3,hhand,h⟩ := of_bind_ok h
          have hd := acts_runHandler w2 w2 .refl
          rw [hhand] at hd
          obtain ⟨hr,rest,hl,hun⟩ := During.remains hd [e.socketFd]
          exact ⟨w3,rest,h,hr,hl,fun fd => reads_unread hun⟩
        · rw [if_neg hb'] at h
          exact ⟨w2,[],h,.refl _ _,(List.append_nil _).symm,fun _ => rfl⟩
      obtain ⟨w3,rest,h,hrem3,hlog3,hrest⟩ := hhandler
      have hremains := hrem.trans hrem3
      obtain ⟨later,hlog',hall,hnone⟩ := ih (ha.tail hremains) h
      have hnodup := List.nodup_cons.mp ha.nodup
      refine ⟨new++(rest++later),?_,?_,?_⟩
      · rw [hlog',hlog3,hlog2,hlog,List.append_assoc,List.append_assoc]
      · rw [← hserver]
        intro e' he'
        obtain rfl | he' := List.mem_cons.mp he'
        · refine ⟨c,hc,hcfd,hdealt.frame (l := []) rfl ?_⟩
          rw [reads_append,hrest,hnone _ hnodup.1]
        · obtain ⟨d,hd,hdfd,hdd⟩ := hall e' he'
          obtain ⟨c',hc',hid,hfd,-⟩ := hremains.entry d hd
          have hmem : e'.socketFd ∈ es.map (·.socketFd) := List.mem_map_of_mem he'
          have hne : e'.socketFd ≠ e.socketFd := by
            intro heq
            rw [heq] at hmem
            exact hnodup.1 hmem
          rw [← hid] at hdd
          have hframe := hdd.frame (l := new++rest) (r := [])
            (by rw [reads_append,hother _ hne,hrest]) rfl
          exact ⟨c',hc',hfd.trans hdfd,by simpa using hframe⟩
      · intro fd hfd
        rw [List.map_cons,List.mem_cons,not_or] at hfd
        rw [reads_append,reads_append,hother fd hfd.1,hrest,hnone fd hfd.2]
    · rw [if_neg hgo] at h
      cases h
      rw [← hb] at hrun
      exact absurd hrun hgo

end Server

open Server Prog in
/-- Nobody is passed over. A call of `handle_incoming_messages_` that returns while the server
still runs has polled every client and dealt with each as the ::poll reported, whatever the
data handlers did meanwhile. -/
theorem Reachable.attends {w w' : World} (hw : Reachable (.accepting,w)) (hfew : Few w.log)
    (hpos : Positive w.log) (h : handleIncomingMessages.run w = (.ok (),w'))
    (hrun : w'.server.running = true) : ∃ pfds n new,
      w'.log = w.log++⟨.sys (.poll pfds n),w.toProcess⟩::new ∧
      ∀ c ∈ entries w.server.clients, ∃ pfd ∈ pfds, pfd.fd = c.fd ∧
        Dealt ⟨c.fd,ssmFromRevents pfd.revents⟩ c.id new := by
  have hmatched : Matched (.accepting,w) := hw.passed.matched hfew hpos
  have hbase : Sound w ∧ Intact w := hw.passed.base
  obtain ⟨⟨hnodup,hpoll⟩,hopen⟩ := hmatched
  obtain ⟨es,w1,hpolled,h⟩ := of_bind_ok h
  obtain ⟨pfds,n,hlog,hfds,rfl,hcs⟩ := pollClients_result hpolled
  have hpfds : (pfds.map (·.fd)).Nodup := by rw [hfds,hpoll]; exact hnodup
  have hawait : Awaited (PollGroup.result pfds) w1.server.clients := by
    rw [hcs]
    refine ⟨hbase.2.noNull,hpfds.sublist (result_sockets pfds),fun e he => ?_,fun c hc _ => ?_⟩
    · have hmem := (result_sockets pfds).subset (List.mem_map_of_mem he)
      rw [hfds,hpoll] at hmem
      exact List.reduceOption_mem_iff.mp hmem
    · have hsock := (hbase.1.socket c hc).resolve_left (hopen c hc)
      exact ⟨hsock,hsock ▸ hopen c hc⟩
  obtain ⟨new,hnew,hall,hnone⟩ := handleEvents_dealt hawait h hrun
  refine ⟨pfds,n,new,by rw [hnew,hlog,List.append_assoc]; rfl,fun c hc => ?_⟩
  have hentries : ((entries w.server.clients).map (·.fd)).Nodup := by
    rw [fdKeys,← entries_map] at hnodup
    exact hnodup
  have hmem : c.fd ∈ pfds.map (·.fd) := by
    rw [hfds,hpoll,List.reduceOption_mem_iff]
    exact mem_fdKeys.mpr ⟨c,hc,rfl⟩
  obtain ⟨pfd,hpfd,hfd⟩ := List.mem_map.mp hmem
  refine ⟨pfd,hpfd,hfd,?_⟩
  by_cases hzero : pfd.revents = 0
  · have hout : c.fd ∉ (PollGroup.result pfds).map (·.socketFd) := by
      intro hin
      obtain ⟨e,he,hefd⟩ := List.mem_map.mp hin
      obtain ⟨pfd',hpfd',rfl⟩ := List.mem_map.mp he
      obtain ⟨hmem',hset⟩ := List.mem_filter.mp hpfd'
      have heq : pfd' = pfd := List.inj_on_of_nodup_map hpfds hmem' hpfd (hefd.trans hfd.symm)
      rw [heq] at hset
      simp [hzero] at hset
    rw [hzero]
    exact .silent (show ssmFromRevents 0 = 0 by decide) (hnone _ hout)
  · have he : (⟨pfd.fd,ssmFromRevents pfd.revents⟩ : SocketStatusInfo) ∈ PollGroup.result pfds :=
      List.mem_map_of_mem (List.mem_filter.mpr ⟨hpfd,by simpa using hzero⟩)
    obtain ⟨d,hd,hdfd,hdealt⟩ := hall _ he
    rw [hcs] at hd
    have heq : d = c := List.inj_on_of_nodup_map hentries hd hc (hdfd.trans hfd)
    rw [← heq,hdfd]
    exact hdealt

namespace Environment
open Server

def greeting : Environment where
  port := 5000
  kernel := ⟨[0,1,2],0,[]⟩
  answers := startup++pending 4++[.poll (.ok [0]),.poll (.ok [POLLIN]),.recv (.ok [7])]
  handlers := [[]]
  stops := [false]

def greeted : World :=
  (hasPendingConnection.run (acceptClient.run (hasPendingConnection.run
    ((openAcceptor.run greeting.initial).2.note .iteration)).2).2).2

theorem greeted_reachable : Reachable (.accepting,greeted) := by
  have h0 : Reachable (.start,greeting.initial) := ⟨greeting,.refl⟩
  have h1 := h0.step .opening
  have h2 := h1.step (.enter rfl)
  have h3 := h2.step (.pending rfl)
  have h4 := h3.step (.accept rfl)
  exact h4.step (.pending rfl)

end Environment

theorem Reachable.attends_greeting : ∃ pfds n new,
    (Server.handleIncomingMessages.run Environment.greeted).2.log =
      Environment.greeted.log++⟨.sys (.poll pfds n),Environment.greeted.toProcess⟩::new ∧
    ∀ c ∈ entries Environment.greeted.server.clients, ∃ pfd ∈ pfds, pfd.fd = c.fd ∧
      Dealt ⟨c.fd,ssmFromRevents pfd.revents⟩ c.id new :=
  Environment.greeted_reachable.attends (by decide +kernel) (by decide +kernel)
    (Prod.ext (by decide +kernel) rfl) (by decide +kernel)

end Yonaa
