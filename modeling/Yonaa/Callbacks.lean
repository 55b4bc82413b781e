import Yonaa.Registry

/-! The callbacks made for one client: one connect, data, one disconnect. -/
namespace Yonaa

namespace Callback

def id : Callback → ClientId
  | .connect id => id
  | .dataReceive id _ => id
  | .disconnect id => id

end Callback

def Event.calls : Event → Option Callback
  | .callback call => some call
  | _ => none

abbrev callbacks (log : List Observation) : List Callback := observed Event.calls log

def callbacksOf (id : ClientId) (log : List Observation) : List Callback :=
  (callbacks log).filter fun call => call.id = id

/-- The client is connected: its connect handler ran, then its data handler on
non-empty buffers. -/
inductive Opened (id : ClientId) : List Callback → Prop where
  | connect : Opened id [.connect id]
  | data {calls : List Callback} {data : Buffer} (h : Opened id calls) (hd : data.size ≠ 0) :
      Opened id (calls++[.dataReceive id data])

/-- A prefix of a client's life. -/
inductive Session (id : ClientId) : List Callback → Prop where
  | unknown : Session id []
  | opened {calls : List Callback} (h : Opened id calls) : Session id calls
  | closed {calls : List Callback} (h : Opened id calls) :
      Session id (calls++[.disconnect id])

theorem Event.isInner.calls {e : Event} {b : Bool} (h : e.isInner b) : e.calls = none := by
  cases e <;> simp_all [isInner,Event.calls]

theorem callbacks_inner {new : List Observation} {b : Bool}
    (h : ∀ o ∈ new, o.event.isInner b) : callbacks new = [] :=
  observed_inner (fun _ _ he => he.calls) h

@[simp] theorem callbacks_sys (calls : List SysCall) (p : Process) :
    callbacks (calls.map fun c => ⟨.sys c,p⟩) = [] := observed_sys (fun _ => rfl) calls p

theorem callbacksOf_snoc {l l' : List Observation} {call : Callback} (id : ClientId)
    (h : callbacks l' = callbacks l++[call]) :
    callbacksOf id l' = if call.id = id then callbacksOf id l++[call] else callbacksOf id l := by
  unfold callbacksOf
  rw [h,List.filter_append]
  by_cases hid : call.id = id
  · simp [hid]
  · simp [hid]

theorem mem_announced {id : ClientId} {log : List Observation} :
    id ∈ announced log ↔ .connect id ∈ callbacks log := by
  simp only [observed,List.mem_filterMap]
  constructor
  · intro h
    obtain ⟨o,ho,he⟩ := h
    refine ⟨o,ho,?_⟩
    cases hev : o.event <;> simp_all [Event.announces,Event.calls]
    split at he <;> simp_all
  · intro h
    obtain ⟨o,ho,he⟩ := h
    refine ⟨o,ho,?_⟩
    cases hev : o.event <;> simp_all [Event.announces,Event.calls]

theorem Opened.mem {id : ClientId} {calls : List Callback} (h : Opened id calls) :
    .connect id ∈ calls := by
  induction h with
  | connect => simp
  | data h hd ih => exact List.mem_append_left _ ih

theorem Session.eq_nil {id : ClientId} {log : List Observation}
    (h : Session id (callbacksOf id log)) (hid : id ∉ announced log) :
    callbacksOf id log = [] := by
  have hno : .connect id ∉ callbacksOf id log := fun hm =>
    hid (mem_announced.mpr (List.mem_filter.mp hm).1)
  generalize callbacksOf id log = calls at h hno ⊢
  cases h with
  | unknown => rfl
  | opened h => exact absurd h.mem hno
  | closed h => exact absurd (List.mem_append_left _ h.mem) hno

theorem not_mem_firstIds {id : ClientId} {n : Nat} (hid : id.toNat = n+1) :
    id ∉ firstIds n := by
  intro hm
  obtain ⟨k,hk,rfl⟩ := List.mem_map.mp hm
  have hlt := List.mem_range.mp hk
  have hle : (UInt64.ofNat (k+1)).toNat ≤ k+1 := by
    rw [UInt64.toNat_ofNat']
    exact Nat.mod_le _ _
  omega

/-! The invariant: an entry that the sweep has not reached is connected. -/

/-- The loop of the sweep has passed the position. -/
def Swept : Point → Nat → Prop
  | .removing first _ i, j => first ≤ j ∧ j < i
  | .dead, _ => True
  | _, _ => False

structure Sessions (x : Point × World) : Prop where
  session : ∀ id, Session id (callbacksOf id x.2.log)
  opened : ∀ j c, x.2.server.clients[j]? = some (some c) → ¬Swept x.1 j →
    Opened c.id (callbacksOf c.id x.2.log)

/-- Each entry that was not swept after a move was one before, at some position. -/
def Carried (x y : Point × World) : Prop :=
  ∀ j d, y.2.server.clients[j]? = some (some d) → ¬Swept y.1 j →
    ∃ k c, x.2.server.clients[k]? = some (some c) ∧ ¬Swept x.1 k ∧ d.id = c.id

theorem Sessions.silent {x y : Point × World} (h : Sessions x)
    (hc : callbacks y.2.log = callbacks x.2.log) (he : Carried x y) : Sessions y := by
  have hof : ∀ id, callbacksOf id y.2.log = callbacksOf id x.2.log := fun id => by
    rw [callbacksOf,hc]
    rfl
  refine ⟨fun id => by rw [hof]; exact h.session id,?_⟩
  intro j d hd hs
  obtain ⟨k,c,hk,hks,hid⟩ := he j d hd hs
  rw [hof,hid]
  exact h.opened k c hk hks

theorem Kept.carried {p : Point} {w w' : World} (h : Kept w w') : Carried (p,w) (p,w') := by
  intro j d hd hs
  obtain ⟨c,hc,hid,-⟩ := h.entry j d hd
  exact ⟨j,c,hc,hs,hid⟩

theorem carried_same {p q : Point} {w w' : World} (hcs : w'.server.clients = w.server.clients)
    (hp : ∀ j, ¬Swept p j) : Carried (p,w) (q,w') := by
  intro j d hd _
  exact ⟨j,d,hcs ▸ hd,hp j,rfl⟩

theorem set_carried {cs : List (Option ClientInfo)} {i j : Nat} {c c' d : ClientInfo}
    (hi : cs[i]? = some (some c)) (hd : (cs.set i (some c'))[j]? = some (some d))
    (hid : c'.id = c.id) :
    ∃ e : ClientInfo, cs[j]? = some (some e) ∧ d.id = e.id := by
  obtain ⟨rfl,rfl⟩ | ⟨-,hd⟩ := getElem?_set_cases hd
  · exact ⟨c,hi,hid⟩
  · exact ⟨d,hd,rfl⟩

theorem Sessions.connect {w w' : World} {id : ClientId} {c : ClientInfo}
    (h : Sessions (.accepting,w)) (hid : id ∉ announced w.log) (hcid : c.id = id)
    (hnot : ∀ d ∈ entries w.server.clients, d.id ≠ id)
    (hcs : w'.server.clients = w.server.clients++[some c])
    (hlog : callbacks w'.log = callbacks w.log++[.connect id]) : Sessions (.accepting,w') := by
  have hnil := (h.session id).eq_nil hid
  have hof : callbacksOf id w'.log = [.connect id] := by
    have hown : (Callback.connect id).id = id := rfl
    rw [callbacksOf_snoc id hlog,if_pos hown,hnil,List.nil_append]
  have hother : ∀ id' ≠ id, callbacksOf id' w'.log = callbacksOf id' w.log := by
    intro id' hne
    rw [callbacksOf_snoc id' hlog,if_neg (fun he => hne he.symm)]
  refine ⟨?_,?_⟩
  · intro id'
    by_cases he : id' = id
    · rw [he,hof]
      exact .opened .connect
    · rw [hother id' he]
      exact h.session id'
  · intro j d hd hs
    by_cases hj : j < w.server.clients.length
    · rw [hcs,List.getElem?_append_left hj] at hd
      rw [hother d.id (hnot d (mem_of_getElem? hd))]
      exact h.opened j d hd hs
    · rw [hcs,List.getElem?_append_right (by omega)] at hd
      have hd' := List.mem_of_getElem? hd
      simp only [List.mem_singleton,Option.some.injEq] at hd'
      rw [hd',hcid,hof]
      exact .connect

/-- Data goes to a client that the sweep has not reached. -/
theorem Sessions.data {x y : Point × World} {j : Nat} {c : ClientInfo} {data : Buffer}
    (h : Sessions x) (hj : x.2.server.clients[j]? = some (some c)) (hs : ¬Swept x.1 j)
    (hd : data.size ≠ 0) (he : Carried x y)
    (hlog : callbacks y.2.log = callbacks x.2.log++[.dataReceive c.id data]) : Sessions y := by
  have hopen := h.opened j c hj hs
  have hof : callbacksOf c.id y.2.log = callbacksOf c.id x.2.log++[.dataReceive c.id data] := by
    have hown : (Callback.dataReceive c.id data).id = c.id := rfl
    rw [callbacksOf_snoc c.id hlog,if_pos hown]
  have hother : ∀ id ≠ c.id, callbacksOf id y.2.log = callbacksOf id x.2.log := by
    intro id hne
    rw [callbacksOf_snoc id hlog,if_neg (fun he => hne he.symm)]
  refine ⟨?_,?_⟩
  · intro id
    by_cases hid : id = c.id
    · rw [hid,hof]
      exact .opened (.data hopen hd)
    · rw [hother id hid]
      exact h.session id
  · intro k d hk hks
    obtain ⟨l,e,hl,hls,hid⟩ := he k d hk hks
    by_cases hdc : d.id = c.id
    · rw [hdc,hof]
      exact .data hopen hd
    · rw [hother d.id hdc,hid]
      exact h.opened l e hl hls

/-- The disconnect callback ends the session of the entry at position i. -/
theorem Sessions.disconnect {first n i : Nat} {w w' : World} {c c' : ClientInfo}
    (h : Sessions (.removing first (n+1) i,w)) (hfirst : first ≤ i)
    (hids : (entries w.server.clients).Pairwise fun a b => a.id ≠ b.id)
    (hi : w.server.clients[i]? = some (some c))
    (hcs : w'.server.clients = w.server.clients.set i (some c'))
    (hlog : callbacks w'.log = callbacks w.log++[.disconnect c.id]) :
    Sessions (.removing first n (i+1),w') := by
  have hopen := h.opened i c hi fun hs => Nat.lt_irrefl i hs.2
  have hother : ∀ id ≠ c.id, callbacksOf id w'.log = callbacksOf id w.log := by
    intro id hne
    rw [callbacksOf_snoc id hlog,if_neg (fun he => hne he.symm)]
  refine ⟨?_,?_⟩
  · intro id
    by_cases he : id = c.id
    · have hown : (Callback.disconnect c.id).id = c.id := rfl
      rw [he,callbacksOf_snoc c.id hlog,if_pos hown]
      exact .closed hopen
    · rw [hother id he]
      exact h.session id
  · intro j d hd hs
    have hji : j ≠ i := by
      rintro rfl
      exact hs ⟨hfirst,Nat.lt_succ_self j⟩
    have hd' : w.server.clients[j]? = some (some d) := by
      change w'.server.clients[j]? = some (some d) at hd
      rw [hcs,List.getElem?_set_ne (Ne.symm hji)] at hd
      exact hd
    rw [hother d.id (pairwise_at (fun _ _ h => h.symm) hd' hi hji hids)]
    exact h.opened j d hd' fun hs' => hs ⟨hs'.1,Nat.lt_succ_of_lt hs'.2⟩

theorem Passed.sessions {x : Point × World} (hx : Passed x) (hfew : Few x.2.log) :
    Sessions x := by
  refine Passed.induct (I := fun x => Few x.2.log → Sessions x) ?_ ?_ hx hfew
  · intro env _
    exact ⟨fun id => .unknown,fun j c hc => by simp [Environment.initial,Server.create] at hc⟩
  · intro x y hx hm ih hfew
    have hbase := hx.base
    have hnum := hx.numbered (hfew.restrict hm.log)
    have h := ih (hfew.restrict hm.log)
    cases hm with
    | opened hs hn hl => exact h.silent (by simp [hl]) (carried_same (by rw [hs]) fun _ => id)
    | @api p w w' hp ha =>
      refine h.silent ?_ ha.kept.carried
      cases ha with
      | quiet hq =>
        obtain ⟨new,hl,hn⟩ := hq.log
        exact observed_same hl (callbacks_inner hn)
      | marked hi => simp [Event.calls]
      | stopped => simp [Event.calls]
    | enter hrun => exact h.silent (by simp [Event.calls]) (carried_same rfl fun _ => id)
    | leave hrun => exact h.silent rfl (carried_same rfl fun _ => id)
    | refused hrun hq =>
      obtain ⟨new,hl,hn⟩ := hq.log
      exact h.silent (observed_same hl (callbacks_inner hn)) (carried_same hq.clients fun _ => id)
    | @registered w w1 fd conn p hrun hnew hconn hp hfds hs hn hl =>
      have halive : (Point.accepting,w).1 ≠ .dead := fun h => by cases h
      have hfresh : w.nextAvailableId ∉ announced w.log := by
        rw [hnum.announced]
        exact not_mem_firstIds (hnum.next halive)
      have hnot : ∀ d ∈ entries w.server.clients, d.id ≠ w.nextAvailableId := by
        intro d hd he
        have hlt := (hnum.range halive d.id (List.mem_map_of_mem hd)).2
        rw [he] at hlt
        exact UInt64.lt_irrefl _ hlt
      exact h.connect hfresh rfl hnot (by rw [World.note_toProcess,hs])
        (by simp [hl,Event.calls])
    | polled hp =>
      obtain ⟨g,-,hs⟩ := hp.server
      obtain ⟨pfds,n,hl⟩ := hp.log
      exact h.silent (by simp [hl,Event.calls]) (carried_same (by rw [hs]) fun _ => id)
    | ignored => exact h.silent rfl (carried_same rfl fun _ => id)
    | @rejected w s e es i j c d ec hrun hf hfds hcalls hd =>
      refine h.silent (by simp [Event.calls]) ?_
      intro k f hk _
      have hk : (w.server.clients.set j (some { d with isConnected := false }))[k]? =
        some (some f) := hk
      obtain ⟨g,hg,hid⟩ := set_carried (Server.find_found hd).1 hk rfl
      exact ⟨k,g,hg,id,hid⟩
    | @closed w s e es i j flags c d ec hrun hf hopen hfds hcalls hd =>
      refine h.silent (by simp [Event.calls]) ?_
      intro k f hk _
      have hk : ((w.server.clients.set i (some { c with conn := {} })).set j
          (some { d with isConnected := false }))[k]? = some (some f) := hk
      obtain ⟨g,hg,hid⟩ := set_carried (Server.find_found hd).1 hk rfl
      obtain ⟨g',hg',hid'⟩ := set_carried (Server.find_found hf).1 hg rfl
      exact ⟨k,g',hg',id,hid.trans hid'⟩
    | @delivered w s e es i flags c bytes hrun hf hopen hne hsize hec hfds hcalls =>
      have hsmall : bytes.length < 2^64 := Nat.lt_of_le_of_lt hsize (by decide)
      have hdata : (Buffer.ofList bytes).size ≠ 0 := by
        rw [Buffer.size,Buffer.data_ofList hsmall]
        exact fun h => hne (List.length_eq_zero_iff.mp h)
      exact h.data (Server.find_found hf).1 id hdata (carried_same rfl fun _ => id)
        (by simp [Event.calls])
    | sweep => exact h.silent (by simp [Event.calls]) (carried_same rfl fun _ => id)
    | skip hd => exact h.silent rfl (carried_same rfl fun _ => id)
    | parted hcs hkept hgone => exact h.silent rfl (carried_same rfl fun _ => id)
    | @moved w w' kept gap hflag hnone hsub hgap hs hn hl =>
      obtain ⟨new,hl,hnew⟩ := hl
      refine h.silent (observed_same hl (callbacks_inner (hnew.isInner true))) ?_
      intro j d hd _
      have hmem : d ∈ entries (kept++gap) := by
        rw [hs] at hd
        exact mem_of_getElem? hd
      obtain ⟨k,hk⟩ := mem_entries_iff.mp (hsub.subset hmem)
      exact ⟨k,d,hk,id,rfl⟩
    | @disconnected w w1 first n i c conn hi hconn hs hn hfds hl =>
      have hcs : (w1.note (.callback (.disconnect c.id))).server.clients =
          w.server.clients.set i (some { c with conn := conn }) := by
        rw [World.note_toProcess,hs]
      refine h.disconnect hbase.2.first_le
        (List.pairwise_map.mp (hnum.nodup fun h => by cases h)) hi hcs ?_
      obtain ⟨-,hl⟩ | ⟨-,p,-,hl⟩ := hl
      · simp [hl,Event.calls]
      · simp [hl,Event.calls]
    | @erased w first i =>
      refine h.silent rfl ?_
      intro j d hd _
      have hd : (w.server.clients.take first)[j]? = some (some d) := hd
      rw [List.getElem?_take] at hd
      split at hd
      · exact ⟨j,d,hd,fun hs => absurd hs.1 (Nat.not_le.mpr ‹_›),rfl⟩
      · cases hd
    | shut ha hs hn hl hnew hf =>
      exact h.silent (observed_same hl (callbacks_inner (hnew.isInner true)))
        (carried_same (by rw [hs]) fun _ => id)
    | die hp hl hnew =>
      exact h.silent (observed_same hl (callbacks_inner hnew)) fun j d _ hs => absurd trivial hs

/-- The callback protocol of every run. -/
theorem Environment.callback_protocol (env : Environment) (fuel : Nat)
    (hfew : Few (env.log fuel)) : (∀ id, Session id (callbacksOf id (env.log fuel))) ∧
      announced (env.log fuel) = firstIds (announced (env.log fuel)).length := by
  obtain ⟨p,hp,-⟩ := env.passed fuel
  exact ⟨(hp.sessions hfew).session,(hp.numbered hfew).announced⟩

theorem Environment.callback_protocol_broadcast :
    (∀ id, Session id (callbacksOf id (broadcast.log 5))) ∧
      announced (broadcast.log 5) = firstIds (announced (broadcast.log 5)).length :=
  broadcast.callback_protocol 5 (by decide +kernel)

end Yonaa
