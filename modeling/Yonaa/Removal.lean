import Yonaa.Registry

/-! Data for clients marked for removal. `message_client` looks at `is_connected`, the
event loop does not. -/
namespace Yonaa

def Event.marks : Event → Option ClientId
  | .marked id => some id
  | _ => none

abbrev markedIds (log : List Observation) : List ClientId := observed Event.marks log

def Observation.lateData (o o' : Observation) : Bool :=
  match o.event, o'.event with
  | .marked id, .callback (.dataReceive id' _) => id == id'
  | _, _ => false

def NoLateData (log : List Observation) : Prop :=
  log.Pairwise fun o o' => o.lateData o' = false

/-- If ::recv returned bytes while `ec_` was clear, the client that has the socket is
connected. -/
def Observation.readsConnected (o : Observation) : Bool :=
  match o.event with
  | .sys (.recv fd _ _ n _) => decide (n ≤ 0) || o.state.server.ec.isSet ||
    (entries o.state.server.clients).all fun c => c.conn.socket != fd || c.isConnected
  | _ => true

def Observation.Routine (o : Observation) : Prop :=
  o.readsConnected = true ∧ ∀ id data, o.event ≠ .callback (.dataReceive id data)

theorem late_append {log new : List Observation} (h : ∀ o ∈ new, o.Routine) :
    NoLateData (log++new) ↔ NoLateData log := by
  have hlate : ∀ o : Observation, ∀ o' ∈ new, o.lateData o' = false := by
    intro o o' ho'
    obtain ⟨e,p⟩ := o
    obtain ⟨e',p'⟩ := o'
    have hno := (h _ ho').2
    cases e with
    | marked id => cases e' with
      | callback call => cases call with
        | dataReceive id' data => exact absurd rfl (hno id' data)
        | _ => rfl
      | _ => rfl
    | _ => rfl
  unfold NoLateData
  rw [List.pairwise_append]
  constructor
  · exact fun h => h.1
  · intro h
    exact ⟨h,List.pairwise_of_forall_mem_list fun o _ o' ho' => hlate o o' ho',
      fun o _ o' ho' => hlate o o' ho'⟩

theorem Event.isInner.routine {o : Observation} {b : Bool} (h : o.event.isInner b) :
    o.Routine := by
  obtain ⟨e,p⟩ := o
  cases e with
  | sys c => cases c with
    | recv fd size flags n bytes => exact ⟨by simp [Observation.readsConnected,h.2],by simp⟩
    | _ => exact ⟨rfl,by simp⟩
  | message id msg => exact ⟨rfl,by simp⟩
  | messaged id => exact ⟨rfl,by simp⟩
  | _ => exact h.elim

open Server in
/-- Data is handed to the client c. -/
structure Delivered (w : World) (c : ClientInfo) (bytes : List Byte)
    (new : List Observation) : Prop where
  entry : c ∈ entries w.server.clients
  isOpen : c.conn.socket ≠ 0
  nonempty : bytes ≠ []
  clear : w.server.ec.isSet = false
  log : ∃ flags q, new = [⟨.sys (.recv c.conn.socket Connection.maxBufferSize flags
    bytes.length bytes),w.toProcess⟩,⟨.callback (.dataReceive c.id (.ofList bytes)),q⟩]

open Server in
theorem Move.records {x y : Point × World} (h : Move x y) :
    ∃ new, y.2.log = x.2.log++new ∧
      ((∀ o ∈ new, o.Routine) ∨ ∃ c bytes, Delivered x.2 c bytes new) := by
  cases h with
  | opened hs hn hl => exact ⟨[],by simp [hl],Or.inl (by simp)⟩
  | api hp h =>
    cases h with
    | quiet h =>
      obtain ⟨new,hl,hn⟩ := h.log
      exact ⟨new,hl,Or.inl fun o ho => (hn o ho).routine⟩
    | marked h => exact ⟨_,rfl,Or.inl (by simp [Observation.Routine,Observation.readsConnected])⟩
    | stopped => exact ⟨_,rfl,Or.inl (by simp [Observation.Routine,Observation.readsConnected])⟩
  | enter h => exact ⟨_,rfl,Or.inl (by simp [Observation.Routine,Observation.readsConnected])⟩
  | leave h => exact ⟨[],by simp,Or.inl (by simp)⟩
  | refused hrun h =>
    obtain ⟨new,hl,hn⟩ := h.log
    exact ⟨new,hl,Or.inl fun o ho => (hn o ho).routine⟩
  | registered hrun hnew hconn hp hfds hs hn hl =>
    exact ⟨_,by rw [World.note_log,hl,List.append_assoc],
      Or.inl (by simp [Observation.Routine,Observation.readsConnected])⟩
  | polled h =>
    obtain ⟨pfds,n,hl⟩ := h.log
    exact ⟨_,hl,Or.inl (by simp [Observation.Routine,Observation.readsConnected])⟩
  | ignored => exact ⟨[],by simp,Or.inl (by simp)⟩
  | @rejected w s e es i j c d ec hrun hf hfds hcalls hd =>
    refine ⟨_,List.append_assoc _ _ _,Or.inl (List.forall_mem_append.mpr ⟨?_,?_⟩)⟩
    · obtain hcalls | ⟨flags,n,bytes,hn,hcalls⟩ := hcalls
      · simp [hcalls]
      · have hread : decide (n ≤ 0) || w.server.ec.isSet := by
          by_cases h : 0 < n
          · simp [hn h]
          · simp [Int.not_lt.mp h]
        simp only [hcalls,List.map_cons,List.map_nil,List.forall_mem_singleton]
        exact ⟨by simp only [Observation.readsConnected,hread,Bool.true_or],by simp⟩
    · simp [Observation.Routine,Observation.readsConnected]
  | @closed w s e es i j flags c d ec hrun hf hopen hfds hcalls hd =>
    refine ⟨_,List.append_assoc _ _ _,Or.inl (List.forall_mem_append.mpr ⟨?_,?_⟩)⟩
    · simp [hcalls,Observation.Routine,Observation.readsConnected]
    · simp [Observation.Routine,Observation.readsConnected]
  | @delivered w s e es i flags c bytes hrun hf hopen hne hsize hec hfds hcalls =>
    refine ⟨_,List.append_assoc _ _ _,Or.inr ⟨c,bytes,?_⟩⟩
    rw [hcalls]
    exact ⟨mem_of_getElem? (find_found hf).1,hopen,hne,hec,flags,_,rfl⟩
  | sweep => exact ⟨_,rfl,Or.inl (by simp [Observation.Routine,Observation.readsConnected])⟩
  | skip h => exact ⟨[],by simp,Or.inl (by simp)⟩
  | parted h hkept hgone => exact ⟨[],by simp,Or.inl (by simp)⟩
  | moved hflag hnone hsub hgap hs hn hl =>
    obtain ⟨new,hl,hnew⟩ := hl
    exact ⟨new,hl,Or.inl fun o ho => (hnew.isInner true o ho).routine⟩
  | disconnected h hconn hs hn hfds hl =>
    obtain ⟨-,hl⟩ | ⟨-,p,-,hl⟩ := hl
    · exact ⟨_,by rw [World.note_log,hl],
        Or.inl (by simp [Observation.Routine,Observation.readsConnected])⟩
    · exact ⟨_,by rw [World.note_log,hl,List.append_assoc],
        Or.inl (by simp [Observation.Routine,Observation.readsConnected])⟩
  | erased => exact ⟨[],by simp,Or.inl (by simp)⟩
  | shut ha hs hn hl hnew hf =>
    exact ⟨_,hl,Or.inl fun o ho => (hnew.isInner true o ho).routine⟩
  | die hp hl hnew => exact ⟨_,hl,Or.inl fun o ho => (hnew o ho).routine⟩

/-! The flag of an entry tells whether its id was marked. That a connected client was not
marked in an earlier life takes ids that are given out once. -/

structure Marking (few : Prop) (w : World) : Prop where
  gone : ∀ c ∈ entries w.server.clients, c.isConnected = false → c.id ∈ markedIds w.log
  kept : few → ∀ c ∈ entries w.server.clients, c.isConnected = true → c.id ∉ markedIds w.log
  old : few → ∀ id ∈ markedIds w.log, id.toNat ≤ (announced w.log).length

theorem Event.isInner.marks {e : Event} {b : Bool} (h : e.isInner b) : e.marks = none := by
  cases e <;> simp_all [isInner,Event.marks]

theorem markedIds_inner {new : List Observation} {b : Bool}
    (h : ∀ o ∈ new, o.event.isInner b) : markedIds new = [] :=
  observed_inner (fun _ _ he => he.marks) h

@[simp] theorem markedIds_sys (calls : List SysCall) (p : Process) :
    markedIds (calls.map fun c => ⟨.sys c,p⟩) = [] := observed_sys (fun _ => rfl) calls p

section Marking
variable {few : Prop} {w w' : World}

theorem Marking.keep (h : Marking few w) (hm : markedIds w'.log = markedIds w.log)
    (ha : announced w'.log = announced w.log)
    (he : ∀ d ∈ entries w'.server.clients, ∃ c ∈ entries w.server.clients,
      d.id = c.id ∧ d.isConnected = c.isConnected) : Marking few w' := by
  refine ⟨?_,?_,by rw [hm,ha]; exact h.old⟩
  · intro d hd
    obtain ⟨c,hc,hid,hcc⟩ := he d hd
    rw [hm,hid,hcc]
    exact h.gone c hc
  · intro hfew d hd
    obtain ⟨c,hc,hid,hcc⟩ := he d hd
    rw [hm,hid,hcc]
    exact h.kept hfew c hc

theorem Marking.same (h : Marking few w) (hm : markedIds w'.log = markedIds w.log)
    (ha : announced w'.log = announced w.log)
    (hcs : w'.server.clients = w.server.clients) : Marking few w' :=
  h.keep hm ha fun d hd => ⟨d,hcs ▸ hd,rfl,rfl⟩

theorem Marking.inner {new : List Observation} {b : Bool} (h : Marking few w)
    (hl : w'.log = w.log++new) (hn : ∀ o ∈ new, o.event.isInner b)
    (he : ∀ d ∈ entries w'.server.clients, ∃ c ∈ entries w.server.clients,
      d.id = c.id ∧ d.isConnected = c.isConnected) : Marking few w' :=
  h.keep (observed_same hl (markedIds_inner hn)) (observed_same hl (announced_inner hn)) he

theorem Marking.mark {i : Nat} {c : ClientInfo} (h : Marking few w)
    (hids : few → (ids w).Nodup) (hold : few → c.id.toNat ≤ (announced w.log).length)
    (hi : w.server.clients[i]? = some (some c)) : Marking few (w.mark i c) := by
  have hm : markedIds (w.mark i c).log = markedIds w.log++[c.id] := by simp [Event.marks]
  have ha : announced (w.mark i c).log = announced w.log := by simp [Event.announces]
  refine ⟨?_,?_,?_⟩
  · intro d hd hdc
    rw [hm,List.mem_append,List.mem_singleton]
    obtain rfl | hd := mem_entries_set hi hd
    · exact Or.inr rfl
    · exact Or.inl (h.gone d hd hdc)
  · intro hfew d hd hdc
    rw [hm,List.mem_append,List.mem_singleton]
    obtain ⟨j,hj⟩ := mem_entries_iff.mp hd
    obtain ⟨rfl,rfl⟩ | ⟨hij,hj⟩ := getElem?_set_cases hj
    · cases hdc
    · have hne : d.id ≠ c.id :=
        pairwise_at (fun _ _ h => h.symm) hj hi hij.symm (List.pairwise_map.mp (hids hfew))
      exact not_or.mpr ⟨h.kept hfew d (mem_of_getElem? hj) hdc,hne⟩
  · intro hfew id hid
    rw [ha]
    rw [hm] at hid
    obtain hid | hid := List.mem_append.mp hid
    · exact h.old hfew id hid
    · rw [List.mem_singleton.mp hid]
      exact hold hfew

end Marking

theorem Numbered.id_le {x : Point × World} (h : Numbered x) (hx : x.1 ≠ .dead) {id : ClientId}
    (hid : id ∈ ids x.2) : id.toNat ≤ (Yonaa.announced x.2.log).length := by
  have hlt := (h.range hx id hid).2
  rw [UInt64.lt_iff_toNat_lt,h.next hx] at hlt
  omega

theorem Marking.move {few : Prop} {x y : Point × World} (h : Marking few x.2) (hm : Move x y)
    (hy : y.1 ≠ .dead) (hnum : few → Numbered x) : Marking few y.2 := by
  have halive := hm.alive
  have hids := fun hfew => (hnum hfew).nodup halive
  have hold : ∀ id ∈ ids x.2, few → id.toNat ≤ (announced x.2.log).length :=
    fun id hid hfew => (hnum hfew).id_le halive hid
  cases hm with
  | opened hs hn hl => exact h.same (by rw [hl]) (by rw [hl]) (by rw [hs])
  | api hp ha =>
    cases ha with
    | quiet hq =>
      obtain ⟨new,hl,hn⟩ := hq.log
      exact h.inner hl hn fun d hd => ⟨d,hq.clients ▸ hd,rfl,rfl⟩
    | marked hi => exact h.mark hids (hold _ (List.mem_map_of_mem (mem_of_getElem? hi))) hi
    | stopped => exact h.same (by simp [Event.marks]) (by simp [Event.announces]) rfl
  | enter hrun => exact h.same (by simp [Event.marks]) (by simp [Event.announces]) rfl
  | leave hrun => exact h
  | refused hrun hq =>
    obtain ⟨new,hl,hn⟩ := hq.log
    exact h.inner hl hn fun d hd => ⟨d,hq.clients ▸ hd,rfl,rfl⟩
  | @registered w w1 fd conn p hrun hnew hconn hp hfds hs hn hl =>
    have hnext : few → w.nextAvailableId.toNat = (announced w.log).length+1 :=
      fun hfew => (hnum hfew).next halive
    have hmarks : markedIds (w1.note (.callback (.connect w.nextAvailableId))).log =
        markedIds w.log := by simp [hl,Event.marks]
    refine ⟨?_,?_,?_⟩
    · intro c hc hcc
      rw [World.note_toProcess,hs,entries_concat] at hc
      rw [hmarks]
      obtain hc | hc := List.mem_append.mp hc
      · exact h.gone c hc hcc
      · rw [List.mem_singleton.mp hc] at hcc
        cases hcc
    · intro hfew c hc hcc
      rw [World.note_toProcess,hs,entries_concat] at hc
      rw [hmarks]
      obtain hc | hc := List.mem_append.mp hc
      · exact h.kept hfew c hc hcc
      · rw [List.mem_singleton.mp hc]
        intro hmem
        have hle : _ ≤ (announced w.log).length := h.old hfew _ hmem
        rw [hnext hfew] at hle
        omega
    · intro hfew id hid
      rw [hmarks] at hid
      have hle : id.toNat ≤ (observed Event.announces w.log).length := h.old hfew id hid
      simp only [World.note_log,hl,observed_append,List.length_append]
      omega
  | polled hp =>
    obtain ⟨g,-,hs⟩ := hp.server
    obtain ⟨pfds,n,hl⟩ := hp.log
    exact h.same (by simp [hl,Event.marks]) (by simp [hl,Event.announces]) (by rw [hs])
  | ignored => exact h
  | @rejected w s e es i j c d ec hrun hf hfds hcalls hd =>
    have hk : Marking few ((Net.putSys w s).withEc ec) := h.same (by simp) (by simp) rfl
    have hj := (Server.find_found hd).1
    exact hk.mark hids
      (fun hfew => by simpa using hold d.id (List.mem_map_of_mem (mem_of_getElem? hj)) hfew) hj
  | @closed w s e es i j flags c d ec hrun hf hopen hfds hcalls hd =>
    have hi := (Server.find_found hf).1
    have hk : Marking few (((Net.putSys w s).withClient i { c with conn := {} }).withEc ec) := by
      refine h.keep (by simp) (by simp) ?_
      intro f hf
      obtain rfl | hf := mem_entries_set hi hf
      · exact ⟨c,mem_of_getElem? hi,rfl,rfl⟩
      · exact ⟨f,hf,rfl,rfl⟩
    have hj := (Server.find_found hd).1
    have hsame : ids (((Net.putSys w s).withClient i { c with conn := {} }).withEc ec) = ids w :=
      ids_set hi rfl rfl
    have hmem : d.id ∈ ids w := by
      rw [← hsame]
      exact List.mem_map_of_mem (mem_of_getElem? hj)
    exact hk.mark (fun hfew => hsame ▸ hids hfew)
      (fun hfew => by simpa using hold d.id hmem hfew) hj
  | delivered hrun hf hopen hne hsize hec hfds hcalls =>
    exact h.same (by simp [Event.marks]) (by simp [Event.announces]) rfl
  | sweep => exact h.same (by simp [Event.marks]) (by simp [Event.announces]) rfl
  | skip hd => exact h
  | parted hcs hkept hgone => exact h
  | moved hflag hnone hsub hgap hs hn hl =>
    obtain ⟨new,hl,hnew⟩ := hl
    refine h.inner hl (hnew.isInner true) ?_
    intro d hd
    rw [hs] at hd
    exact ⟨d,hsub.subset hd,rfl,rfl⟩
  | @disconnected w w1 first n i c conn hi hconn hs hn hfds hl =>
    have hlog : markedIds (w1.note (.callback (.disconnect c.id))).log = markedIds w.log ∧
        announced (w1.note (.callback (.disconnect c.id))).log = announced w.log := by
      obtain ⟨-,hl⟩ | ⟨-,p,-,hl⟩ := hl
      · simp [hl,Event.marks,Event.announces]
      · simp [hl,Event.marks,Event.announces]
    refine h.keep hlog.1 hlog.2 ?_
    intro d hd
    rw [World.note_toProcess,hs] at hd
    obtain rfl | hd := mem_entries_set hi hd
    · exact ⟨c,mem_of_getElem? hi,rfl,rfl⟩
    · exact ⟨d,hd,rfl,rfl⟩
  | @erased w first i =>
    refine h.keep rfl rfl ?_
    intro d hd
    exact ⟨d,(entries_take _ first).subset hd,rfl,rfl⟩
  | shut ha hs hn hl hnew hf =>
    exact h.inner hl (hnew.isInner true) fun d hd => ⟨d,by rw [hs] at hd; exact hd,rfl,rfl⟩
  | die hp hl hnew => exact absurd rfl hy

theorem Passed.marking {x : Point × World} (hx : Passed x) {few : Prop}
    (hfew : few → Few x.2.log) (ha : x.1 ≠ .dead) : Marking few x.2 := by
  refine Passed.induct (I := fun x => (few → Few x.2.log) → x.1 ≠ .dead → Marking few x.2)
    ?_ ?_ hx hfew ha
  · intro env _ _
    exact ⟨fun c hc => absurd hc List.not_mem_nil,fun _ c hc => absurd hc List.not_mem_nil,
      fun _ id hid => absurd hid List.not_mem_nil⟩
  · intro x y hx hm ih hfew hy
    have hfew' := fun h => (hfew h).restrict hm.log
    exact (ih hfew' hm.alive).move hm hy fun h => hx.numbered (hfew' h)

/-! The history. -/

theorem Sound.eq_of_socket {w : World} {c d : ClientInfo} (h : Sound w)
    (hc : c ∈ entries w.server.clients) (hd : d ∈ entries w.server.clients)
    (h0 : c.conn.socket ≠ 0) (he : d.conn.socket = c.conn.socket) : d = c := by
  by_contra hne
  exact h.apart.forall hc hd (Ne.symm hne) h0 he.symm

theorem lateData_iff (log : List Observation) (id : ClientId) (data : Buffer) (q : Process) :
    (∀ o ∈ log, o.lateData ⟨.callback (.dataReceive id data),q⟩ = false) ↔
      id ∉ markedIds log := by
  simp only [observed,List.mem_filterMap,not_exists,not_and]
  refine forall₂_congr fun o _ => ?_
  obtain ⟨e,p⟩ := o
  cases e with
  | marked id' => simp [Observation.lateData,Event.marks]
  | _ => simp [Observation.lateData,Event.marks]

/-- Handing data to a client is late exactly if its id was marked, and a read for a
connected client exactly if it has its flag. -/
theorem Delivered.late {w : World} {c : ClientInfo} {bytes : List Byte}
    {new : List Observation} (h : Delivered w c bytes new) (hs : Sound w) :
    (NoLateData (w.log++new) ↔ NoLateData w.log ∧ c.id ∉ markedIds w.log) ∧
      ((∀ o ∈ new, o.readsConnected = true) ↔ c.isConnected = true) := by
  obtain ⟨flags,q,rfl⟩ := h.log
  have hpos : ¬((bytes.length : Int) ≤ 0) := by
    have := List.length_pos_of_ne_nil h.nonempty
    omega
  have hrecv : ∀ (o : Observation) (c : SysCall) (p : Process),
      o.lateData ⟨.sys c,p⟩ = false := by
    intro o c p
    obtain ⟨e,p'⟩ := o
    cases e <;> rfl
  constructor
  · unfold NoLateData
    rw [List.pairwise_append,← lateData_iff w.log c.id (.ofList bytes) q]
    constructor
    · intro hl
      exact ⟨hl.1,fun o ho => hl.2.2 o ho _ (by simp)⟩
    · intro hl
      refine ⟨hl.1,by simp [Observation.lateData],fun o ho => ?_⟩
      exact List.forall_mem_cons.mpr ⟨hrecv o _ _,List.forall_mem_singleton.mpr (hl.2 o ho)⟩
  · have hall : ((entries w.server.clients).all fun d =>
        d.conn.socket != c.conn.socket || d.isConnected) = true ↔ c.isConnected = true := by
      rw [List.all_eq_true]
      constructor
      · intro hall
        simpa using hall c h.entry
      · intro hc d hd
        by_cases he : d.conn.socket = c.conn.socket
        · rw [hs.eq_of_socket h.entry hd h.isOpen he,hc]
          simp
        · simp [he]
    rw [← hall]
    have hread : decide ((bytes.length : Int) ≤ 0) = false := decide_eq_false hpos
    simp only [List.forall_mem_cons,Observation.readsConnected,hread,h.clear,Bool.false_or]
    simp

theorem Passed.late {x : Point × World} (hx : Passed x) :
    (NoLateData x.2.log → ∀ o ∈ x.2.log, o.readsConnected = true) ∧
    (Few x.2.log → (∀ o ∈ x.2.log, o.readsConnected = true) → NoLateData x.2.log) := by
  refine hx.induct (I := fun x => (NoLateData x.2.log → ∀ o ∈ x.2.log, o.readsConnected = true) ∧
    (Few x.2.log → (∀ o ∈ x.2.log, o.readsConnected = true) → NoLateData x.2.log)) ?_ ?_
  · intro env
    exact ⟨fun _ o ho => (nomatch ho),fun _ _ => .nil⟩
  · intro x y hx hm ih
    obtain ⟨new,hl,hnew | ⟨c,bytes,hnew⟩⟩ := hm.records
    · rw [hl,late_append hnew,List.forall_mem_append]
      refine ⟨fun h => ⟨ih.1 h,fun o ho => (hnew o ho).1⟩,fun hfew h => ?_⟩
      exact ih.2 (hfew.restrict (List.prefix_append _ _)) h.1
    · obtain ⟨hlate,hreads⟩ := hnew.late (hx.base.sound hm.alive)
      have hmark : Marking (Few x.2.log) x.2 := hx.marking id hm.alive
      rw [hl,hlate,List.forall_mem_append,hreads]
      constructor
      · intro h
        refine ⟨ih.1 h.1,by_contra fun hc => h.2 ?_⟩
        exact hmark.gone c hnew.entry (by simpa using hc)
      · intro hfew h
        have hfew' := hfew.restrict (List.prefix_append _ _)
        exact ⟨ih.2 hfew' h.1,hmark.kept hfew' c hnew.entry h.2⟩

/-- No data handler runs for a client after it was marked for removal exactly if every
client from which bytes are received is still connected; for the one direction no id may
come back to a new client. -/
theorem Environment.late_data_iff (env : Environment) (fuel : Nat) :
    (NoLateData (env.log fuel) → ∀ o ∈ env.log fuel, o.readsConnected = true) ∧
    (Few (env.log fuel) → (∀ o ∈ env.log fuel, o.readsConnected = true) →
      NoLateData (env.log fuel)) := by
  obtain ⟨p,hp,-⟩ := env.passed fuel
  exact hp.late

/-- Two clients are readable in one pass; the handler of the first removes the second. -/
def Environment.removal : Environment where
  port := 5000
  kernel := ⟨[0,1,2],0,[]⟩
  answers := startup++pending 4++pending 5++[.poll (.ok [0]),.poll (.ok [1,1]),
    .recv (.ok [7]),.recv (.ok [8])]
  handlers := [[],[],[.removeClient 2],[]]
  stops := List.replicate 12 false

theorem Environment.removal_late : ¬NoLateData (removal.log 5) := by
  unfold NoLateData
  decide +kernel

end Yonaa
