import Yonaa.Callbacks
import Yonaa.Stopping

/-! Which clients the network thread releases before it returns: those the last sweep
takes away. -/
namespace Yonaa

def Observation.announcedFd (o : Observation) : Option Int :=
  match o.event with
  | .callback (.connect id) =>
    ((entries o.state.server.clients).find? fun c => c.id == id).map (·.fd)
  | _ => none

def announcedFds (log : List Observation) : List Int := log.filterMap Observation.announcedFd

/-- Every announced client was disconnected once, and its descriptor is not open. -/
structure Released (log : List Observation) (p : Process) : Prop where
  disconnected : ∀ id ∈ announced log, (callbacksOf id log).count (.disconnect id) = 1
  closed : ∀ fd ∈ announcedFds log, fd ∉ p.kernel.fds

def Observation.sweeps (o : Observation) : Option Process :=
  if o.event = .sweep then some o.state else none

/-- The state in which the last sweep began. -/
def lastSweep (log : List Observation) : Option Process :=
  (log.filterMap Observation.sweeps).getLast?

/-- When the last sweep began every client was marked for removal. -/
def SweptAll (log : List Observation) : Prop :=
  ∀ p ∈ lastSweep log, ∀ c ∈ entries p.server.clients, c.isConnected = false

theorem announcedFds_append (l l' : List Observation) :
    announcedFds (l++l') = announcedFds l++announcedFds l' := List.filterMap_append

theorem announcedFds_same {l l' : List Observation} (hle : l <+: l')
    (h : announced l' = announced l) : announcedFds l' = announcedFds l := by
  obtain ⟨new,rfl⟩ := hle
  have hnil : announced new = [] := by simpa using h
  rw [announcedFds_append]
  have hnew : announcedFds new = [] := by
    refine List.filterMap_eq_nil_iff.mpr fun o ho => ?_
    have hno := List.filterMap_eq_nil_iff.mp hnil o ho
    obtain ⟨e,p⟩ := o
    cases e with
    | callback call => cases call <;> simp_all [Observation.announcedFd,Event.announces]
    | _ => rfl
  rw [hnew,List.append_nil]

theorem announced_same {l l' : List Observation} (hle : l <+: l')
    (h : callbacks l' = callbacks l) : announced l' = announced l := by
  obtain ⟨new,rfl⟩ := hle
  have hnil : callbacks new = [] := by simpa using h
  refine observed_same rfl (List.filterMap_eq_nil_iff.mpr fun o ho => ?_)
  have hno := List.filterMap_eq_nil_iff.mp hnil o ho
  cases he : o.event <;> simp_all [Event.calls,Event.announces]

/-! Clients that were not released are still in the registry. -/

def Present (x : Point × World) (P : ClientInfo → Prop) : Prop :=
  ∃ j c, x.2.server.clients[j]? = some (some c) ∧ ¬Swept x.1 j ∧ P c

structure Releasing (x : Point × World) : Prop where
  listed : ∀ id, Opened id (callbacksOf id x.2.log) → Present x fun c => c.id = id
  owned : ∀ fd ∈ announcedFds x.2.log, fd ≠ 0 → fd ∈ x.2.kernel.fds →
    Present x fun c => c.conn.socket = fd
  zero : 0 ∈ announcedFds x.2.log → 0 ∈ x.2.kernel.fds

/-- The loop of the sweep will meet an empty pointer. -/
def Doomed : Point × World → Prop
  | (.removing _ _ i,w) => none ∈ w.server.clients.drop i
  | (.dead,_) => True
  | _ => False

/-- No entry is lost, and a descriptor that an entry gives up is closed. -/
def Survives (x y : Point × World) : Prop :=
  ∀ j c, x.2.server.clients[j]? = some (some c) → ¬Swept x.1 j →
    ∃ k d, y.2.server.clients[k]? = some (some d) ∧ ¬Swept y.1 k ∧ d.id = c.id ∧
      (d.conn.socket = c.conn.socket ∨ c.conn.socket ∉ y.2.kernel.fds)

theorem Survives.of_clients {p q : Point} {w w' : World}
    (h : w'.server.clients = w.server.clients) (hq : ∀ j, Swept q j → Swept p j) :
    Survives (p,w) (q,w') :=
  fun j c hc hs => ⟨j,c,by rw [← hc]; exact congrArg (·[j]?) h,fun h => hs (hq j h),rfl,Or.inl rfl⟩

theorem Survives.of_set {p q : Point} {w w' : World} {i : Nat} {c c' : ClientInfo}
    (hi : w.server.clients[i]? = some (some c))
    (hcs : w'.server.clients = w.server.clients.set i (some c')) (hid : c'.id = c.id)
    (hsock : c'.conn.socket = c.conn.socket ∨ c.conn.socket ∉ w'.kernel.fds)
    (hq : ∀ j, Swept q j → Swept p j) : Survives (p,w) (q,w') := by
  intro j d hd hs
  have hlt : i < w.server.clients.length := (List.getElem?_eq_some_iff.mp hi).1
  by_cases hij : i = j
  · subst hij
    have hd : w.server.clients[i]? = some (some d) := hd
    rw [hi] at hd
    cases hd
    refine ⟨i,c',?_,fun h => hs (hq i h),hid,hsock⟩
    change w'.server.clients[i]? = some (some c')
    rw [hcs,List.getElem?_set_self hlt]
  · refine ⟨j,d,?_,fun h => hs (hq j h),rfl,Or.inl rfl⟩
    change w'.server.clients[j]? = some (some d)
    rw [hcs,List.getElem?_set_ne hij]
    exact hd

theorem Survives.trans {x y z : Point × World} (h : Survives x y) (h' : Survives y z)
    (hfds : ∀ fd ∈ z.2.kernel.fds, fd ∈ y.2.kernel.fds) : Survives x z := by
  intro j c hc hs
  obtain ⟨k,d,hd,hks,hid,hsock⟩ := h j c hc hs
  obtain ⟨l,e,he,hls,hid',hsock'⟩ := h' k d hd hks
  refine ⟨l,e,he,hls,hid'.trans hid,?_⟩
  obtain hsock | hsock := hsock
  · rw [← hsock]
    exact hsock'
  · exact Or.inr fun hmem => hsock (hfds _ hmem)

theorem Releasing.frame {x y : Point × World} (h : Releasing x)
    (hopen : ∀ id, Opened id (callbacksOf id y.2.log) → Opened id (callbacksOf id x.2.log))
    (hann : announcedFds y.2.log = announcedFds x.2.log) (hs : Survives x y)
    (hold : ∀ fd ≠ 0, fd ∈ y.2.kernel.fds → fd ∈ x.2.kernel.fds)
    (hzero : 0 ∈ x.2.kernel.fds → 0 ∈ y.2.kernel.fds) : Releasing y := by
  refine ⟨?_,?_,by rw [hann]; exact fun h0 => hzero (h.zero h0)⟩
  · intro id hid
    obtain ⟨j,c,hc,hsw,hcid⟩ := h.listed id (hopen id hid)
    obtain ⟨k,d,hd,hks,hdid,-⟩ := hs j c hc hsw
    exact ⟨k,d,hd,hks,hdid.trans hcid⟩
  · intro fd hfd h0 hmem
    rw [hann] at hfd
    obtain ⟨j,c,hc,hsw,hcfd⟩ := h.owned fd hfd h0 (hold fd h0 hmem)
    obtain ⟨k,d,hd,hks,-,hsock⟩ := hs j c hc hsw
    refine ⟨k,d,hd,hks,(hsock.resolve_right ?_).trans hcfd⟩
    rw [hcfd]
    exact fun hno => hno hmem

theorem Releasing.silent {x y : Point × World} (h : Releasing x) (hle : x.2.log <+: y.2.log)
    (hc : callbacks y.2.log = callbacks x.2.log) (hs : Survives x y)
    (hold : ∀ fd ≠ 0, fd ∈ y.2.kernel.fds → fd ∈ x.2.kernel.fds)
    (hzero : 0 ∈ x.2.kernel.fds → 0 ∈ y.2.kernel.fds) : Releasing y := by
  refine h.frame ?_ (announcedFds_same hle (announced_same hle hc)) hs hold hzero
  intro id hid
  rw [callbacksOf,hc] at hid
  exact hid

theorem Opened.last {id : ClientId} {calls : List Callback} (h : Opened id calls) :
    calls.getLast? = some (.connect id) ∨ ∃ data, calls.getLast? = some (.dataReceive id data) := by
  cases h with
  | connect => exact Or.inl rfl
  | data h hd => exact Or.inr ⟨_,List.getLast?_concat⟩

theorem Opened.not_disconnect {id : ClientId} {calls : List Callback}
    (h : Opened id (calls++[.disconnect id])) : False := by
  obtain h | ⟨data,h⟩ := h.last
  · simp at h
  · simp at h

theorem Opened.of_data {id : ClientId} {calls : List Callback} {data : Buffer}
    (h : Opened id (calls++[.dataReceive id data])) : Opened id calls := by
  generalize hl : calls++[.dataReceive id data] = l at h
  cases h with
  | connect =>
    have hlast := congrArg List.getLast? hl
    simp at hlast
  | data h hd =>
    rw [List.append_inj_left' hl rfl]
    exact h

theorem Doomed.move {x y : Point × World} (h : Doomed x) (hm : Move x y) (hx : Base x) :
    Doomed y := by
  cases hm with
  | @api p w w' hp ha =>
    cases p with
    | removing first n i => exact ha.kept.empty i h
    | dead => exact hp.elim
    | _ => exact h.elim
  | @disconnected w w1 first n i c conn hi hconn hs hn hfds hl =>
    change none ∈ w1.server.clients.drop (i+1)
    rw [hs]
    exact none_mem_drop_succ hi h
  | @erased w first i =>
    have hlen : w.server.clients.length = i := by simpa using hx.2.length
    have h : none ∈ w.server.clients.drop i := h
    rw [List.drop_of_length_le (by omega)] at h
    exact absurd h List.not_mem_nil
  | die hp hl hnew => trivial
  | _ => exact h.elim

theorem Releasing.registered {w w1 : World} {fd : Int} {conn : Connection} {p : Process}
    (h : Releasing (.accepting,w)) (hids : ∀ d ∈ entries w.server.clients, d.id ≠ w.nextAvailableId)
    (hconn : conn.socket = fd) (hfds : w1.kernel.fds = fd::w.kernel.fds)
    (hs : w1.server.clients = w.server.clients++[some ⟨w.nextAvailableId,conn,fd,true⟩])
    (hl : w1.log = w.log++[⟨.sys (.accept w.server.acceptor.socket fd),p⟩]) :
    Releasing (.accepting,w1.note (.callback (.connect w.nextAvailableId))) := by
  have hlast : w1.server.clients[w.server.clients.length]? =
      some (some ⟨w.nextAvailableId,conn,fd,true⟩) := by simp [hs]
  have hpresent : ∀ P : ClientInfo → Prop, Present (.accepting,w) P →
      Present (.accepting,w1.note (.callback (.connect w.nextAvailableId))) P := by
    intro P hp
    obtain ⟨j,c,hc,hsw,hP⟩ := hp
    have hlt : j < w.server.clients.length := (List.getElem?_eq_some_iff.mp hc).1
    refine ⟨j,c,?_,hsw,hP⟩
    change w1.server.clients[j]? = some (some c)
    rw [hs,List.getElem?_append_left hlt]
    exact hc
  have hfind : (entries w1.server.clients).find? (fun c => c.id == w.nextAvailableId) =
      some ⟨w.nextAvailableId,conn,fd,true⟩ := by
    rw [hs,entries_concat,List.find?_append,List.find?_eq_none.mpr]
    · simp
    · simpa using hids
  have hann : announcedFds (w1.note (.callback (.connect w.nextAvailableId))).log =
      announcedFds w.log++[fd] := by
    rw [World.note_log,hl,announcedFds_append,announcedFds_append,List.append_assoc]
    congr 1
    simp [announcedFds,Observation.announcedFd,hfind]
  refine ⟨?_,?_,?_⟩
  · intro id hid
    by_cases he : id = w.nextAvailableId
    · exact ⟨_,_,hlast,fun hs => hs,he.symm⟩
    · refine hpresent _ (h.listed id ?_)
      have hcalls : callbacks (w1.note (.callback (.connect w.nextAvailableId))).log =
          callbacks w.log++[.connect w.nextAvailableId] := by simp [hl,Event.calls]
      have hne : ¬(Callback.connect w.nextAvailableId).id = id := fun h => he h.symm
      rw [callbacksOf_snoc id hcalls,if_neg hne] at hid
      exact hid
  · intro dst hdst h0 hmem
    rw [hann] at hdst
    have hmem : dst ∈ w1.kernel.fds := hmem
    rw [hfds] at hmem
    obtain rfl | hmem := List.mem_cons.mp hmem
    · exact ⟨_,_,hlast,fun hs => hs,hconn⟩
    · obtain hdst | hdst := List.mem_append.mp hdst
      · exact hpresent _ (h.owned dst hdst h0 hmem)
      · rw [List.mem_singleton.mp hdst]
        exact ⟨_,_,hlast,fun hs => hs,hconn⟩
  · intro h0
    rw [hann] at h0
    change 0 ∈ w1.kernel.fds
    rw [hfds]
    obtain h0 | h0 := List.mem_append.mp h0
    · exact List.mem_cons_of_mem _ (h.zero h0)
    · rw [List.mem_singleton.mp h0]
      exact List.mem_cons_self

theorem Releasing.disconnected {first n i : Nat} {w w' : World} {c c' : ClientInfo}
    (h : Releasing (.removing first (n+1) i,w))
    (hi : w.server.clients[i]? = some (some c))
    (hcs : w'.server.clients = w.server.clients.set i (some c'))
    (hfds : w'.kernel.fds = w.kernel.fds.filter fun fd => c.conn.socket = 0 ∨
      fd ≠ c.conn.socket) (hle : w.log <+: w'.log)
    (hlog : callbacks w'.log = callbacks w.log++[.disconnect c.id])
    (hann : announced w'.log = announced w.log) :
    Releasing (.removing first n (i+1),w') := by
  have hkeep : ∀ P : ClientInfo → Prop, ¬P c → Present (.removing first (n+1) i,w) P →
      Present (.removing first n (i+1),w') P := by
    intro P hP hp
    obtain ⟨j,d,hd,hsw,hPd⟩ := hp
    have hd : w.server.clients[j]? = some (some d) := hd
    have hij : i ≠ j := by
      rintro rfl
      rw [hi] at hd
      cases hd
      exact hP hPd
    refine ⟨j,d,?_,?_,hPd⟩
    · change w'.server.clients[j]? = some (some d)
      rw [hcs,List.getElem?_set_ne hij]
      exact hd
    · intro hs
      have hs : first ≤ j ∧ j < i+1 := hs
      exact hsw ⟨hs.1,by omega⟩
  have hfds_same := announcedFds_same hle hann
  refine ⟨?_,?_,?_⟩
  · intro id hid
    rw [callbacksOf_snoc id hlog] at hid
    by_cases he : c.id = id
    · subst he
      have hown : (Callback.disconnect c.id).id = c.id := rfl
      rw [if_pos hown] at hid
      exact hid.not_disconnect.elim
    · have hne : ¬(Callback.disconnect c.id).id = id := he
      rw [if_neg hne] at hid
      exact hkeep _ he (h.listed id hid)
  · intro fd hfd h0 hmem
    rw [hfds_same] at hfd
    have hmem : fd ∈ w'.kernel.fds := hmem
    rw [hfds,List.mem_filter] at hmem
    refine hkeep _ ?_ (h.owned fd hfd h0 hmem.1)
    rintro rfl
    have hcl := hmem.2
    simp [h0] at hcl
  · intro h0
    rw [hfds_same] at h0
    change 0 ∈ w'.kernel.fds
    rw [hfds,List.mem_filter]
    refine ⟨h.zero h0,?_⟩
    by_cases hc : c.conn.socket = 0
    · simp [hc]
    · simp [hc,Ne.symm hc]

theorem Releasing.api {p : Point} {w w' : World} (h : Releasing (p,w)) (ha : ApiStep w w')
    (hle : w.log <+: w'.log) : Releasing (p,w') := by
  cases ha with
  | quiet hq =>
    obtain ⟨new,hl,hn⟩ := hq.log
    exact h.silent hle (observed_same hl (callbacks_inner hn))
      (.of_clients hq.clients fun _ => id) hq.open_old (hq.open_kept 0)
  | marked hi =>
    exact h.silent hle (by simp [Event.calls]) (.of_set hi rfl rfl (Or.inl rfl) fun _ => id)
      (fun _ _ => id) id
  | stopped =>
    exact h.silent hle (by simp [Event.calls]) (.of_clients rfl fun _ => id) (fun _ _ => id) id

theorem Releasing.move {x y : Point × World} (h : Releasing x) (hm : Move x y) (hx : Base x)
    (hstart : x.1 = .start → x.2.log = []) (hnum : Numbered x) : Doomed y ∨ Releasing y := by
  have hle := hm.log
  have halive := hm.alive
  cases hm with
  | @opened w w' a hs hn hl =>
    have hnil : w'.log = [] := hl.trans (hstart rfl)
    refine Or.inr ⟨?_,?_,?_⟩
    · intro id hid
      have hmem := hid.mem
      simp [hnil,callbacksOf] at hmem
    · intro fd hfd
      simp [hnil,announcedFds] at hfd
    · intro h0
      simp [hnil,announcedFds] at h0
  | api hp ha => exact Or.inr (h.api ha hle)
  | enter hrun =>
    exact Or.inr (h.silent hle (by simp [Event.calls]) (.of_clients rfl fun _ => id)
      (fun _ _ => id) id)
  | leave hrun => exact Or.inr (h.silent hle rfl (.of_clients rfl fun _ => id) (fun _ _ => id) id)
  | refused hrun hq =>
    obtain ⟨new,hl,hn⟩ := hq.log
    exact Or.inr (h.silent hle (observed_same hl (callbacks_inner hn))
      (.of_clients hq.clients fun _ => id) hq.open_old (hq.open_kept 0))
  | @registered w w1 fd conn p hrun hnew hconn hp hfds hs hn hl =>
    refine Or.inr (h.registered ?_ hconn hfds (by rw [hs]) hl)
    intro d hd he
    have hlt := (hnum.range halive d.id (List.mem_map_of_mem hd)).2
    rw [he] at hlt
    exact UInt64.lt_irrefl _ hlt
  | @polled w w' es hp =>
    obtain ⟨g,-,hs⟩ := hp.server
    obtain ⟨pfds,n,hl⟩ := hp.log
    have hfds : w'.kernel.fds = w.kernel.fds := hp.fds
    exact Or.inr (h.silent hle (by simp [hl,Event.calls])
      (.of_clients (by rw [hs]) fun _ => id) (fun fd _ => by simp [hfds]) (by simp [hfds]))
  | ignored => exact Or.inr (h.silent hle rfl (.of_clients rfl fun _ => id) (fun _ _ => id) id)
  | @rejected w s e es i j c d ec hrun hf hfds hcalls hd =>
    exact Or.inr (h.silent hle (by simp [Event.calls])
      (.of_set (Server.find_found hd).1 rfl rfl (Or.inl rfl) fun _ => id)
      (fun fd _ => by simp [hfds]) (by simp [hfds]))
  | @closed w s e es i j flags c d ec hrun hf hopen hfds hcalls hd =>
    have hclose : Survives (.events (e::es),w)
        (.events es,((Net.putSys w s).withClient i { c with conn := {} }).withEc ec) :=
      .of_set (Server.find_found hf).1 rfl rfl (Or.inr (by simp [hfds])) fun _ => id
    refine Or.inr (h.silent hle (by simp [Event.calls]) (hclose.trans
      (.of_set (Server.find_found hd).1 rfl rfl (Or.inl rfl) fun _ => id) fun fd => id) ?_ ?_)
    · intro fd _ hmem
      have hmem : fd ∈ s.kernel.fds := hmem
      rw [hfds] at hmem
      exact (List.mem_filter.mp hmem).1
    · intro h0
      change 0 ∈ s.kernel.fds
      rw [hfds]
      exact List.mem_filter.mpr ⟨h0,by simpa using Ne.symm hopen⟩
  | @delivered w s e es i flags c bytes hrun hf hopen hne hsize hec hfds hcalls =>
    have hcall : callbacks
        ((Net.putSys w s).note (.callback (.dataReceive c.id (.ofList bytes)))).log =
        callbacks w.log++[.dataReceive c.id (.ofList bytes)] := by simp [Event.calls]
    refine Or.inr (h.frame ?_ (announcedFds_same hle (by simp [Event.announces]))
      (.of_clients rfl fun _ => id) (fun fd _ => by simp [hfds]) (by simp [hfds]))
    intro id hid
    rw [callbacksOf_snoc id hcall] at hid
    split at hid
    · rename_i he
      have he : c.id = id := he
      subst he
      exact hid.of_data
    · exact hid
  | sweep =>
    exact Or.inr (h.silent hle (by simp [Event.calls]) (.of_clients rfl fun _ => id)
      (fun _ _ => id) id)
  | skip hd => exact Or.inr (h.silent hle rfl (.of_clients rfl fun _ => id) (fun _ _ => id) id)
  | parted hcs hkept hgone =>
    exact Or.inr (h.silent hle rfl
      (.of_clients rfl fun j hs => absurd hs.2 (Nat.not_lt.mpr hs.1)) (fun _ _ => id) id)
  | @moved w w' kept gap hflag hnone hsub hgap hs hn hl =>
    left
    change none ∈ w'.server.clients.drop kept.length
    simp [hs,hnone]
  | @disconnected w w1 first n i c conn hi hconn hs hn hfds hl =>
    have hlog : callbacks (w1.note (.callback (.disconnect c.id))).log =
        callbacks w.log++[.disconnect c.id] ∧
        announced (w1.note (.callback (.disconnect c.id))).log = announced w.log := by
      obtain ⟨-,hl⟩ | ⟨-,p,-,hl⟩ := hl
      · simp [hl,Event.calls,Event.announces]
      · simp [hl,Event.calls,Event.announces]
    have hcs : (w1.note (.callback (.disconnect c.id))).server.clients =
        w.server.clients.set i (some { c with conn := conn }) := by
      rw [World.note_toProcess,hs]
    exact Or.inr (h.disconnected hi hcs hfds hle hlog.1 hlog.2)
  | @erased w first i =>
    have hlen : w.server.clients.length = i := by simpa using hx.2.length
    refine Or.inr (h.silent hle rfl ?_ (fun _ _ => id) id)
    intro j c hc hs
    have hlt : j < w.server.clients.length := (List.getElem?_eq_some_iff.mp hc).1
    have hj : j < first := by
      by_contra hj
      exact hs ⟨by omega,by omega⟩
    refine ⟨j,c,?_,fun h => h,rfl,Or.inl rfl⟩
    change (w.server.clients.take first)[j]? = some (some c)
    rw [List.getElem?_take,if_pos hj]
    exact hc
  | @shut w w' a new ha hs hn hl hnew hf =>
    refine Or.inr (h.silent hle (observed_same hl (callbacks_inner (hnew.isInner true)))
      (.of_clients (by rw [hs]) fun _ h => h) ?_ ?_)
    · intro fd _ hmem
      have hmem : fd ∈ w'.kernel.fds := hmem
      rw [hf] at hmem
      exact (List.mem_filter.mp hmem).1
    · intro h0
      change 0 ∈ w'.kernel.fds
      rw [hf,List.mem_filter]
      refine ⟨h0,?_⟩
      by_cases hc : w.server.acceptor.socket = 0
      · simp [hc]
      · simp [hc,Ne.symm hc]
  | die hp hl hnew => exact Or.inl trivial

theorem Passed.releasing {x : Point × World} (hx : Passed x) (hfew : Few x.2.log) :
    Doomed x ∨ Releasing x := by
  refine Passed.induct (I := fun x => Few x.2.log → Doomed x ∨ Releasing x) ?_ ?_ hx hfew
  · intro env _
    exact Or.inr ⟨fun id hid => absurd hid.mem List.not_mem_nil,
      fun fd hfd => absurd hfd List.not_mem_nil,fun h0 => absurd h0 List.not_mem_nil⟩
  · intro x y hx hm ih hfew
    have hfew' := hfew.restrict hm.log
    obtain h | h := ih hfew'
    · exact Or.inl (h.move hm hx.base)
    · exact h.move hm hx.base hx.stopping.start (hx.numbered hfew')

/-! The last sweep leaves the clients that were not marked when it began. -/

theorem lastSweep_same {l l' new : List Observation} (hl : l' = l++new)
    (hn : ∀ o ∈ new, o.event ≠ .sweep) : lastSweep l' = lastSweep l := by
  have hnil : new.filterMap Observation.sweeps = [] :=
    List.filterMap_eq_nil_iff.mpr fun o ho => if_neg (hn o ho)
  rw [lastSweep,hl,List.filterMap_append,hnil,List.append_nil]
  rfl

theorem lastSweep_note (w : World) : lastSweep (w.note .sweep).log = some w.toProcess := by
  simp [lastSweep,Observation.sweeps]

theorem Event.isInner.not_sweep {e : Event} {b : Bool} (h : e.isInner b) : e ≠ .sweep := by
  rintro rfl
  exact h

/-- What is left of the clients of the last sweep. -/
def Tallied : Point × World → Prop
  | (.start,w) => w.log = []
  | (.top,w) | (.left,w) | (.done,w) => SweptAll w.log ↔ entries w.server.clients = []
  | (.sweeping,w) => lastSweep w.log = some w.toProcess
  | (.removing first _ i,w) => none ∈ w.server.clients.drop i ∨ (SweptAll w.log ↔ first = 0)
  | _ => True

theorem SweptAll.congr {l l' : List Observation} (h : lastSweep l' = lastSweep l) :
    SweptAll l' ↔ SweptAll l := by rw [SweptAll,h]; rfl

theorem ApiStep.lastSweep {w w' : World} (h : ApiStep w w') :
    Yonaa.lastSweep w'.log = Yonaa.lastSweep w.log := by
  cases h with
  | quiet h =>
    obtain ⟨new,hl,hn⟩ := h.log
    exact lastSweep_same hl fun o ho => (hn o ho).not_sweep
  | marked h => exact lastSweep_same rfl (by simp)
  | stopped => exact lastSweep_same rfl (by simp)

theorem ApiStep.entries_eq_nil {w w' : World} (h : ApiStep w w') :
    entries w'.server.clients = [] ↔ entries w.server.clients = [] := by
  cases h with
  | quiet h => rw [h.clients]
  | stopped => exact Iff.rfl
  | @marked i c h =>
    have hids : ids (w.mark i c) = ids w := ids_set h rfl rfl
    rw [← List.map_eq_nil_iff (f := ClientInfo.id),← List.map_eq_nil_iff (f := ClientInfo.id)]
    exact iff_of_eq (congrArg (· = []) hids)

theorem entries_take_eq_nil {cs : List (Option ClientInfo)} {first : Nat} (hn : none ∉ cs)
    (hle : first ≤ cs.length) : entries (cs.take first) = [] ↔ first = 0 := by
  constructor
  · intro h
    by_contra h0
    cases cs with
    | nil => exact h0 (Nat.le_zero.mp hle)
    | cons e cs =>
      cases e with
      | none => exact hn List.mem_cons_self
      | some c =>
        obtain ⟨n,rfl⟩ := Nat.exists_eq_succ_of_ne_zero h0
        simp at h
  · rintro rfl
    simp

theorem Tallied.move {x y : Point × World} (h : Tallied x) (hm : Move x y) (hx : Base x) :
    Tallied y := by
  cases hm with
  | @opened w w' a hs hn hl =>
    have hnil : w'.log = [] := hl.trans h
    change SweptAll w'.log ↔ entries w'.server.clients = []
    rw [hnil,hs]
    simp [SweptAll,lastSweep,hx.1]
  | @api p w w' hp ha =>
    cases p with
    | top => exact (SweptAll.congr ha.lastSweep).trans (Iff.trans h ha.entries_eq_nil.symm)
    | removing first n i =>
      obtain h | h := h
      · exact Or.inl (ha.kept.empty i h)
      · exact Or.inr ((SweptAll.congr ha.lastSweep).trans h)
    | accepting => trivial
    | events es => trivial
    | _ => exact hp.elim
  | leave hrun => exact h
  | sweep => exact lastSweep_note _
  | @skip w hd =>
    obtain ⟨hs,-⟩ := hx
    have hlast : lastSweep w.log = some w.toProcess := h
    change SweptAll w.log ↔ entries w.server.clients = []
    constructor
    · intro hall
      refine List.eq_nil_iff_forall_not_mem.mpr fun c hc => ?_
      have hflag := hs.flagged c hc (hall _ hlast c hc)
      rw [hd] at hflag
      cases hflag
    · intro hnil p hp c hc
      rw [hlast] at hp
      cases Option.mem_some.mp hp
      rw [hnil] at hc
      cases hc
  | @parted w kept gone hcs hkept hgone =>
    have hlast : lastSweep w.log = some w.toProcess := h
    refine Or.inr ⟨?_,?_⟩
    · intro hall
      refine List.length_eq_zero_iff.mpr (List.eq_nil_iff_forall_not_mem.mpr fun e he => ?_)
      have hmem : e ∈ w.server.clients := by
        rw [hcs]
        exact List.mem_append_left _ he
      cases e with
      | none => exact hx.2.noNull hmem
      | some c =>
        have hc := hall _ hlast c (List.reduceOption_mem_iff.mpr hmem)
        rw [hkept c he] at hc
        cases hc
    · intro h0 p hp c hc
      rw [hlast] at hp
      cases Option.mem_some.mp hp
      rw [hcs,List.length_eq_zero_iff.mp h0] at hc
      exact hgone c (List.reduceOption_mem_iff.mp hc)
  | @moved w w' kept gap hflag hnone hsub hgap hs hn hl =>
    exact Or.inl (by simp [hs,hnone])
  | @disconnected w w1 first n i c conn hi hconn hs hn hfds hl =>
    have hlast : lastSweep (w1.note (.callback (.disconnect c.id))).log = lastSweep w.log := by
      obtain ⟨-,hl⟩ | ⟨-,p,-,hl⟩ := hl
      · exact lastSweep_same (by rw [World.note_log,hl]) (by simp)
      · exact lastSweep_same (by rw [World.note_log,hl,List.append_assoc]) (by simp)
    obtain h | h := h
    · left
      change none ∈ w1.server.clients.drop (i+1)
      rw [hs]
      exact none_mem_drop_succ hi h
    · exact Or.inr ((SweptAll.congr hlast).trans h)
  | @erased w first i =>
    obtain ⟨-,hsweep⟩ := hx
    have hlen : w.server.clients.length = i := by simpa using hsweep.length
    have hdrop : none ∉ w.server.clients.drop i := by
      rw [List.drop_of_length_le (by omega)]
      exact List.not_mem_nil
    have hnn := (hsweep.shut.resolve_left hdrop).1.noNull
    exact (h.resolve_left hdrop).trans
      (entries_take_eq_nil hnn (by rw [hlen]; exact hsweep.first_le)).symm
  | @shut w w' a new ha hs hn hl hnew hf =>
    have hlast : lastSweep w'.log = lastSweep w.log :=
      lastSweep_same hl fun o ho => (hnew.isInner true o ho).not_sweep
    have hcs : w'.server.clients = w.server.clients := by rw [hs]
    change SweptAll w'.log ↔ entries w'.server.clients = []
    rw [hcs]
    exact (SweptAll.congr hlast).trans h
  | _ => trivial

theorem Passed.tallied {x : Point × World} (hx : Passed x) : Tallied x :=
  hx.induct (I := Tallied) (fun _ => rfl) fun _ _ hx hm ih => ih.move hm hx.base

/-! When the thread function returns. -/

theorem Opened.count {id : ClientId} {calls : List Callback} (h : Opened id calls) :
    calls.count (.disconnect id) = 0 := by
  induction h with
  | connect => rfl
  | data h hd ih => simp [List.count_append,ih]

/-- One disconnect callback tells that the session is over. -/
theorem Session.count {id : ClientId} {calls : List Callback} (h : Session id calls)
    (hid : .connect id ∈ calls) : calls.count (.disconnect id) = 1 ↔ ¬Opened id calls := by
  cases h with
  | unknown => exact absurd hid List.not_mem_nil
  | opened h => simp [h.count,h]
  | closed h => exact iff_of_true (by simp [List.count_append,h.count]) Opened.not_disconnect

theorem mem_callbacksOf {id : ClientId} {log : List Observation} :
    .connect id ∈ callbacksOf id log ↔ id ∈ announced log := by
  rw [mem_announced,callbacksOf,List.mem_filter]
  simp [Callback.id]

/-- When the thread function returns, every announced client was disconnected once and
its socket is closed exactly if every client was marked for removal when the last sweep
began and no client has the descriptor 0. -/
theorem Environment.released_iff (env : Environment) (fuel : Nat)
    (hok : (env.run fuel).1 = .ok ()) (hfew : Few (env.log fuel)) :
    Released (env.log fuel) (env.run fuel).2.toProcess ↔
      SweptAll (env.log fuel) ∧ 0 ∉ announcedFds (env.log fuel) := by
  obtain ⟨p,hp,hdone,-⟩ := env.passed fuel
  obtain rfl := hdone hok
  have hr : Releasing (.done,(env.run fuel).2) := (hp.releasing hfew).resolve_left id
  have hses : Sessions (.done,(env.run fuel).2) := hp.sessions hfew
  have hswept : SweptAll (env.log fuel) ↔ entries (env.run fuel).2.server.clients = [] :=
    hp.tallied
  have habsent : entries (env.run fuel).2.server.clients = [] →
      ∀ P, ¬Present (.done,(env.run fuel).2) P := by
    intro hnil P hpres
    obtain ⟨j,c,hc,-,-⟩ := hpres
    have hmem := mem_of_getElem? hc
    rw [hnil] at hmem
    cases hmem
  rw [hswept]
  constructor
  · intro h
    have hnil : entries (env.run fuel).2.server.clients = [] := by
      refine List.eq_nil_iff_forall_not_mem.mpr fun c hc => ?_
      obtain ⟨j,hj⟩ := mem_entries_iff.mp hc
      have hopen : Opened c.id (callbacksOf c.id (env.log fuel)) :=
        hses.opened j c hj fun hs => hs
      exact ((hses.session c.id).count hopen.mem).mp
        (h.disconnected c.id (mem_callbacksOf.mp hopen.mem)) hopen
    exact ⟨hnil,fun h0 => h.closed 0 h0 (hr.zero h0)⟩
  · intro h
    refine ⟨?_,?_⟩
    · intro id hid
      refine ((hses.session id).count (mem_callbacksOf.mpr hid)).mpr fun hopen => ?_
      exact habsent h.1 _ (hr.listed id hopen)
    · intro fd hfd hmem
      have h0 : fd ≠ 0 := by
        rintro rfl
        exact h.2 hfd
      exact habsent h.1 _ (hr.owned fd hfd h0 hmem)

namespace Environment

/-- The client is removed by its own connect handler; after the next stop the thread ends. -/
def farewell : Environment where
  port := 5000
  kernel := ⟨[0,1,2],0,[]⟩
  answers := startup++pending 4++[.poll (.ok [0]),.poll (.ok [0]),.shutdown (.ok ()),
    .close (.ok ()),.shutdown (.ok ()),.close (.ok ())]
  handlers := [[.removeClient 1],[.stop]]
  stops := List.replicate 12 false

/-- The connect handler stops the server. -/
def halting : Environment where
  port := 5000
  kernel := ⟨[0,1,2],0,[]⟩
  answers := startup++pending 4++[.poll (.ok [0]),.shutdown (.ok ()),.close (.ok ())]
  handlers := [[.stop]]
  stops := List.replicate 12 false

theorem released_iff_farewell : announced (farewell.log 5) = [1] ∧
    Released (farewell.log 5) (farewell.run 5).2.toProcess :=
  ⟨by decide +kernel,(farewell.released_iff 5 (by decide +kernel) (by decide +kernel)).mpr
    ⟨by unfold SweptAll; decide +kernel,by decide +kernel⟩⟩

/-- The client of a server that was stopped is neither disconnected nor closed. -/
theorem halting_not_released : (halting.run 5).1 = .ok () ∧
    ¬Released (halting.log 5) (halting.run 5).2.toProcess := by
  refine ⟨by decide +kernel,fun h => ?_⟩
  have hclosed : 4 ∉ (halting.run 5).2.kernel.fds := h.closed 4 (by decide +kernel)
  revert hclosed
  decide +kernel

end Environment

end Yonaa
