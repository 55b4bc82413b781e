import Yonaa.Accepting
import Yonaa.Sweeping
import Yonaa.Triples

/-! When a run of the network thread dereferences an empty pointer. Only the sweep can leave
an empty pointer behind, and a sweep that does so never ends. -/
namespace Yonaa
open Relation

/-- Every sweep so far has found the marked entries last. -/
def Regular (log : List Observation) : Prop :=
  ∀ o ∈ log, o.event = .sweep → MarkedLast (entries o.state.server.clients)

theorem Regular.restrict {l l' : List Observation} (h : l <+: l') (ht : Regular l') : Regular l :=
  fun o ho => ht o (h.subset ho)

theorem Regular.append {l new : List Observation} (h : Regular l)
    (hnew : ∀ o ∈ new, o.event ≠ .sweep) : Regular (l++new) := by
  intro o ho he
  obtain ho | ho := List.mem_append.mp ho
  · exact h o ho he
  · exact absurd he (hnew o ho)

theorem Regular.inner {l l' : List Observation} {b : Bool} (h : Regular l)
    (hl : ∃ new, l' = l++new ∧ ∀ o ∈ new, o.event.isInner b) : Regular l' := by
  obtain ⟨new,rfl,hnew⟩ := hl
  refine h.append fun o ho he => ?_
  have hin := hnew o ho
  rw [he] at hin
  exact hin

/-- No pointer is empty, the flag is set if an entry is marked, and the sweeps so far were
regular. -/
structure Whole (w : World) : Prop where
  noNull : none ∉ w.server.clients
  flagged : ∀ c ∈ entries w.server.clients, c.isConnected = false →
    w.server.hasDisconnectedClients = true
  regular : Regular w.log

theorem Whole.same {w w' : World} (h : Whole w) (hcs : w'.server.clients = w.server.clients)
    (hd : w'.server.hasDisconnectedClients = w.server.hasDisconnectedClients)
    (ht : Regular w'.log) : Whole w' :=
  ⟨by rw [hcs]; exact h.noNull,by rw [hcs,hd]; exact h.flagged,ht⟩

theorem Whole.mark {w : World} (h : Whole w) (i : Nat) (c : ClientInfo) : Whole (w.mark i c) := by
  refine ⟨fun hn => ?_,fun _ _ _ => rfl,h.regular.append fun o ho => ?_⟩
  · obtain hn | hn := List.mem_or_eq_of_mem_set hn
    · exact h.noNull hn
    · cases hn
  · rw [List.mem_singleton.mp ho]
    exact fun he => nomatch he

theorem Whole.quiet {b : Bool} {w w' : World} (h : Whole w) (hq : Quiet b w w') : Whole w' :=
  h.same hq.clients hq.hasDisconnectedClients (h.regular.inner hq.log)

/-! A handler. -/

theorem ApiStep.length {w w' : World} (h : ApiStep w w') :
    w'.server.clients.length = w.server.clients.length := by
  have hk := congrArg List.length h.kept.keys
  simpa [fdKeys,keys] using hk

theorem ApiStep.whole {w w' : World} (h : ApiStep w w') (hw : Whole w) : Whole w' := by
  cases h with
  | quiet h => exact hw.quiet h
  | marked h => exact hw.mark _ _
  | stopped =>
    refine hw.same rfl rfl (hw.regular.append fun o ho => ?_)
    rw [List.mem_singleton.mp ho]
    exact fun he => nomatch he

theorem ApiStep.log {w w' : World} (h : ApiStep w w') : w.log <+: w'.log :=
  Move.log (.api (p := .top) trivial h)

/-- What handlers have made of w. -/
abbrev During (w w' : World) : Prop := ReflTransGen ApiStep w w'

section During
variable {w w' : World} (h : During w w')
include h

theorem During.length : w'.server.clients.length = w.server.clients.length := by
  induction h with
  | refl => rfl
  | tail _ hs ih => exact hs.length.trans ih

theorem During.whole (hw : Whole w) : Whole w' := by
  induction h with
  | refl => exact hw
  | tail _ hs ih => exact hs.whole ih

theorem During.empty {j : Nat} (hn : none ∈ w.server.clients.drop j) :
    none ∈ w'.server.clients.drop j := by
  induction h with
  | refl => exact hn
  | tail _ hs ih => exact hs.kept.empty j ih

theorem During.log : w.log <+: w'.log := by
  induction h with
  | refl => exact List.prefix_refl _
  | tail _ hs ih => exact ih.trans hs.log

end During

namespace Server
open Net Prog

/-- The end of a handler: an input was missing, or an empty pointer was dereferenced. -/
def Broken (w : World) (e : Halt) (w' : World) : Prop :=
  During w w' ∧ (e = .cut ∨ (e = .crash ∧ none ∈ w'.server.clients))

/-- What a part of a handler does in w, it does by the steps of handlers. -/
abbrev Acts {α : Type} (w : World) (m : Net α) : Prop :=
  Triple (During w) m (fun _ => During w) (Broken w)

theorem acts_action {w : World} {m : Net Unit}
    (ha : ∀ w', Action w' (m.run w'))
    (he : ∀ e w' w'', m.run w' = (.error e,w'') →
      e = .cut ∨ (e = .crash ∧ none ∈ w''.server.clients)) :
    Acts w m := by
  intro w' hw
  have hsteps := (ha w').steps
  have hend := he
  cases hr : m.run w' with
  | mk r w'' =>
    rw [hr] at hsteps
    cases r with
    | ok a => exact hw.trans hsteps
    | error e => exact ⟨hw.trans hsteps,he e w' w'' hr⟩

theorem none_of_crash {p : ClientInfo → Bool} {cs : List (Option ClientInfo)}
    (h : find p cs = .crash) : none ∈ cs := by
  by_contra hn
  exact find_not_crash hn h

theorem acts_removeClient (w : World) (id : ClientId) : Acts w (removeClient id) := by
  refine acts_action (fun _ => .remove id) fun e w' w'' hr => ?_
  have h := removeClient_cases id w'
  rw [hr] at h
  cases h with
  | crash h => exact Or.inr ⟨rfl,none_of_crash h⟩

theorem acts_messageClient (w : World) (msg : Buffer) (id : ClientId) :
    Acts w (messageClient msg id) := by
  refine acts_action (fun _ => .message msg id) fun e w' w'' hr => ?_
  have h := messageClient_cases msg id w'
  rw [hr] at h
  cases h with
  | crash h => exact Or.inr ⟨rfl,none_of_crash h⟩
  | cut hf hc hs =>
    exact Or.inl ((Connection.send_frame _ msg w'.server.ec 0 _).2.2 e (by rw [hs]))

theorem acts_messageFrom {w : World} (msg : Buffer) (exclude : ClientId) {n i : Nat}
    (hlen : i+n ≤ w.server.clients.length) : Acts w (messageFrom msg exclude n i) := by
  induction n generalizing i with
  | zero => exact Triple.pure fun _ h => h
  | succ n ih =>
    refine Triple.bind (Q := fun _ => During w) ?_ fun client => .ite (fun _ => ?_) fun _ =>
      ih (by omega)
    · intro w' hw
      by_cases hi : ∃ c, w'.server.clients[i]? = some (some c)
      · obtain ⟨c,hi⟩ := hi
        rw [deref_entry hi]
        exact hw
      · have hcrash : ∀ c, w'.server.clients[i]? ≠ some (some c) := fun c hc => hi ⟨c,hc⟩
        rw [deref_crash hcrash]
        refine ⟨hw,Or.inr ⟨rfl,?_⟩⟩
        have hlt : i < w'.server.clients.length := by
          rw [hw.length]
          omega
        cases he : w'.server.clients[i] with
        | none => exact he ▸ List.getElem_mem hlt
        | some c => exact absurd (by rw [List.getElem?_eq_getElem hlt,he]) (hcrash c)
    · exact (acts_messageClient w msg client.id).bind fun _ => ih (by omega)

theorem acts_apiCall (w : World) (call : ApiCall) : Acts w (apiCall call) := by
  cases call with
  | messageClient msg id => exact acts_messageClient w msg id
  | removeClient id => exact acts_removeClient w id
  | stop => exact acts_action (fun _ => .stop) fun e w' w'' hr => by cases hr
  | messageAllClients msg exclude =>
    refine Triple.get_bind fun w' hw => ?_
    refine acts_messageFrom (w := w) msg exclude ?_ w' hw
    rw [hw.length]
    omega

theorem acts_runHandler (w : World) : Acts w runHandler := by
  refine Triple.bind (Q := fun _ => During w) ?_ fun calls => Triple.forM (acts_apiCall w) calls
  intro w' hw
  cases hh : w'.handlers with
  | nil =>
    rw [nextHandler_nil hh]
    exact ⟨hw,Or.inl rfl⟩
  | cons calls rest =>
    rw [nextHandler_cons hh]
    exact hw.tail (.quiet (.inputs rest w'.stops))

/-! The other pieces, while no pointer is empty. -/

/-- A run ends in order: an answer is missing, or the bound on the iterations is reached. -/
def Orderly (e : Halt) (w : World) : Prop := (e = .cut ∨ e = .outOfFuel) ∧ Regular w.log

/-- The piece leaves the vector whole, and no empty pointer stops it. -/
abbrev Safe {α : Type} (m : Net α) : Prop := Triple Whole m (fun _ => Whole) Orderly

theorem Orderly.cut {w w' : World} (hw : Whole w)
    (hl : ∃ new, w'.log = w.log++new ∧ ∀ o ∈ new, o.event.isInner true) : Orderly .cut w' :=
  ⟨Or.inl rfl,hw.regular.inner hl⟩

theorem Orderly.same {w w' : World} (hw : Whole w) (hl : w'.log = w.log) : Orderly .cut w' :=
  ⟨Or.inl rfl,hl ▸ hw.regular⟩

theorem safe_runHandler : Safe runHandler := by
  intro w hw
  refine (acts_runHandler w w .refl).mono (fun _ w' h => h.whole hw) fun e w' h => ?_
  obtain ⟨hd,he⟩ := h
  refine ⟨?_,(hd.whole hw).regular⟩
  obtain rfl | ⟨-,hn⟩ := he
  · exact Or.inl rfl
  · exact absurd hn (hd.whole hw).noNull

theorem safe_loadRunning : Safe loadRunning := by
  intro w hw
  cases hs : w.stops with
  | nil =>
    rw [loadRunning_nil hs]
    exact .same hw rfl
  | cons b rest =>
    rw [loadRunning_cons hs]
    have hw' : Whole { w with stops := rest } := hw.same rfl rfl hw.regular
    cases b with
    | false => exact hw'
    | true => exact ApiStep.stopped.whole hw'

theorem safe_hasPendingConnection : Safe hasPendingConnection := by
  intro w hw
  obtain ⟨b,w',hr,hq,-⟩ | ⟨w',hr,hq,hl⟩ := hasPendingConnection_quiet w
  · rw [hr]
    exact hw.quiet hq
  · rw [hr]
    exact .same hw hl

theorem safe_acceptClient : Safe acceptClient := by
  intro w hw
  have h := acceptClient_cases w
  generalize acceptClient.run w = r at h ⊢
  cases h with
  | refused hq hl => exact hw.quiet hq
  | dropped hq hnew hp hec hl hcl => exact hw.quiet hq
  | @registered fd conn p w1 hnew hconn hp hec hfds hs hn hl =>
    refine ⟨by simp [hs,hw.noNull],?_,?_⟩
    · simp only [World.note_toProcess,hs,entries_concat]
      intro c hc hcc
      obtain hc | hc := List.mem_append.mp hc
      · exact hw.flagged c hc hcc
      · rw [List.mem_singleton.mp hc] at hcc
        cases hcc
    · rw [World.note_log,hl]
      exact (hw.regular.append (by simp)).append (by simp)
  | cut hl =>
    obtain hl | ⟨fd,p,-,hl⟩ := hl
    · exact .same hw hl
    · exact ⟨Or.inl rfl,hl ▸ hw.regular.append (by simp)⟩

theorem safe_pollClients : Safe pollClients := by
  intro w hw
  obtain ⟨es,w',hr,⟨g,-,hs⟩,-,-,pfds,n,hl⟩ | ⟨w',hr,hl⟩ := pollClients_cases w
  · rw [hr]
    exact hw.same (by rw [hs]) (by rw [hs]) (hl ▸ hw.regular.append (by simp))
  · rw [hr]
    exact .same hw hl

theorem regular_sys {w : World} (hw : Whole w) (s : SysState) : Regular (putSys w s).log := by
  refine hw.regular.append fun o ho he => ?_
  obtain ⟨c,-,rfl⟩ := List.mem_map.mp ho
  cases he

theorem receive_fills (n : Nat) (c : Connection) (ec : ErrorCode) :
    Fills n (sys (c.receive Connection.maxBufferSize ec)) := by
  refine .sys fun s e he => ?_
  by_cases hc : c.isConnected = true
  · have hmax : Connection.maxBufferSize ≠ 0 := by decide
    obtain ⟨flags,h⟩ := Connection.receive_open ec 0 hc hmax s
    generalize (c.receive Connection.maxBufferSize ec).run s = r at h he
    cases h with
    | closing hfds hcalls hans =>
      cases he
      rfl
    | cut hs =>
      cases he
      rfl
    | _ => cases he
  · rw [Connection.receive_closed _ ec 0 (by simpa using hc)] at he
    cases he

theorem handleEvent_fills (e : SocketStatusInfo) : Fills 0 (handleEvent e) := by
  refine Fills.bind (fun w hw => ?_) fun x => ?_
  · obtain ⟨i,c,-,hr⟩ | ⟨-,hr⟩ | ⟨hf,-⟩ := lookup_cases (fun c => c.fd == e.socketFd) w
    · rw [clientInfoFromNativeSocket,hr]
      exact hw
    · rw [clientInfoFromNativeSocket,hr]
      exact hw
    · exact absurd hf (find_not_crash hw.2)
  · cases x with
    | none => exact .pure false
    | some x =>
      refine .ite ((removeClient_fills 0 x.2.id).bind fun _ => .pure false) (.ite ?_ (.pure false))
      refine fun w hw => ((receive_fills 0 x.2.conn w.server.ec).bind fun y => ?_) w hw
      refine Fills.bind (fun w hw => ⟨Nat.zero_le _,fun hn => ?_⟩) fun _ => ?_
      · cases List.mem_or_eq_of_mem_set hn with
        | inl hn => exact hw.2 hn
        | inr heq => cases heq
      · refine Fills.bind (fun w hw => hw) fun _ => .ite ?_ fun w hw => hw
        exact (removeClient_fills 0 x.2.id).bind fun _ => .pure false

theorem safe_handleEvent (e : SocketStatusInfo) : Safe (handleEvent e) := by
  intro w hw
  have h := handleEvent_cases e w
  have hfills := handleEvent_fills e w ⟨Nat.zero_le _,hw.noNull⟩
  generalize (handleEvent e).run w = r at h hfills ⊢
  cases h with
  | ignored => exact hw
  | crash =>
    rw [holds_error] at hfills
    obtain h | h := hfills <;> cases h
  | hungUp hf hd => exact hw.mark _ _
  | @rejected i j c d ec s hf hfds hcalls hd =>
    have hw' : Whole ((putSys w s).withEc ec) := hw.same rfl rfl (regular_sys hw s)
    exact hw'.mark _ _
  | @closed i j flags c d ec s hf hopen hfds hcalls hd =>
    have hc := (find_found hf).1
    have hw' : Whole (((putSys w s).withClient i { c with conn := {} }).withEc ec) := by
      refine ⟨fun hn => ?_,fun x hx hxc => ?_,regular_sys hw s⟩
      · obtain hn | hn := List.mem_or_eq_of_mem_set hn
        · exact hw.noNull hn
        · cases hn
      · obtain rfl | hx := mem_entries_set hc hx
        · exact hw.flagged c (mem_of_getElem? hc) hxc
        · exact hw.flagged x hx hxc
    exact hw'.mark _ _
  | @delivered i flags c bytes s hf hopen hne hsize hec hfds hcalls =>
    exact hw.same rfl rfl ((regular_sys hw s).append (by simp))
  | @cut i c s hf hcalls => exact ⟨Or.inl rfl,regular_sys hw s⟩

theorem safe_handleIncomingConnections (fuel : Nat) : Safe (handleIncomingConnections fuel) := by
  have hstop : Triple Whole (Prog.stop .outOfFuel : Net Unit) (fun _ => Whole) Orderly :=
    Triple.stop fun w hw => ⟨Or.inr rfl,hw.regular⟩
  have hpure : Safe (Pure.pure () : Net Unit) := Triple.pure fun _ h => h
  induction fuel with
  | zero => exact safe_loadRunning.bind fun _ => .ite (fun _ => hstop) fun _ => hpure
  | succ fuel ih =>
    refine safe_loadRunning.bind fun _ => .ite (fun _ => ?_) fun _ => hpure
    refine safe_hasPendingConnection.bind fun _ => .ite (fun _ => ?_) fun _ => hpure
    refine safe_acceptClient.bind fun _ => .ite (fun _ => ?_) fun _ => ih
    exact safe_runHandler.bind fun _ => ih

theorem safe_handleEvents (es : PollResult) : Safe (handleEvents es) := by
  induction es with
  | nil => exact Triple.pure fun _ h => h
  | cons e es ih =>
    refine safe_loadRunning.bind fun _ => .ite (fun _ => ?_) fun _ => Triple.pure fun _ h => h
    refine (safe_handleEvent e).bind fun _ => .ite (fun _ => ?_) fun _ => ih
    exact safe_runHandler.bind fun _ => ih

/-! The sweep. -/

/-- An empty pointer lies ahead of position i, after a sweep that was not regular. -/
structure Blocked (n i : Nat) (w : World) : Prop where
  ahead : none ∈ w.server.clients.drop i
  length : w.server.clients.length = i+n
  irregular : ¬Regular w.log

/-- A run is stopped by an empty pointer, if an answer is not missing first. -/
def Lost (e : Halt) (w : World) : Prop := (e = .cut ∨ e = .crash) ∧ ¬Regular w.log

/-- The loop of the sweep does not get past an empty pointer. -/
theorem disconnectFrom_blocked (n i : Nat) :
    Triple (Blocked n i) (disconnectFrom n i) (fun _ _ => False) Lost := by
  induction n generalizing i with
  | zero =>
    refine Triple.pure fun w hw => ?_
    have hahead := hw.ahead
    rw [List.drop_of_length_le (by rw [hw.length]; omega)] at hahead
    exact absurd hahead List.not_mem_nil
  | succ n ih =>
    refine Triple.bind (Q := fun _ => Blocked n (i+1)) (fun w hw => ?_) fun _ =>
      Triple.bind (Q := fun _ => Blocked n (i+1)) (fun w hw => ?_) fun _ => ih (i+1)
    · have h := disconnectClient_cases i w
      generalize (disconnectClient i).run w = r at h ⊢
      cases h with
      | crash h => exact ⟨Or.inr rfl,hw.irregular⟩
      | @done c conn w1 h hconn hs hn hfds hl =>
        have hmove : Move (.removing 0 1 i,w)
            (.removing 0 0 (i+1),w1.note (.callback (.disconnect c.id))) :=
          .disconnected h hconn hs hn hfds hl
        have hlog : w.log <+: (w1.note (.callback (.disconnect c.id))).log := hmove.log
        refine ⟨?_,?_,fun ht => hw.irregular (ht.restrict hlog)⟩
        · rw [World.note_toProcess,hs]
          exact none_mem_drop_succ h hw.ahead
        · have hlen := hw.length
          simp only [World.note_toProcess,hs,List.length_set]
          omega
      | cut hl => exact ⟨Or.inl rfl,hl ▸ hw.irregular⟩
    · refine (acts_runHandler w w .refl).mono (fun _ w' h => ?_) fun e w' h => ?_
      · exact ⟨h.empty hw.ahead,h.length.trans hw.length,fun ht => hw.irregular (ht.restrict h.log)⟩
      · exact ⟨h.2.imp_right And.left,fun ht => hw.irregular (ht.restrict h.1.log)⟩

theorem safe_disconnectFrom (n i : Nat) : Triple (fun w => Whole w ∧ w.server.clients.length = i+n)
    (disconnectFrom n i) (fun _ => Whole) Orderly := by
  induction n generalizing i with
  | zero => exact Triple.pure fun _ h => h.1
  | succ n ih =>
    refine Triple.bind (Q := fun _ w => Whole w ∧ w.server.clients.length = i+1+n)
      (fun w hw => ?_) fun _ =>
      Triple.bind (Q := fun _ w => Whole w ∧ w.server.clients.length = i+1+n) (fun w hw => ?_)
        fun _ => ih (i+1)
    · obtain ⟨hw,hlen⟩ := hw
      have h := disconnectClient_cases i w
      generalize (disconnectClient i).run w = r at h ⊢
      cases h with
      | crash h =>
        have hlt : i < w.server.clients.length := by omega
        cases he : w.server.clients[i] with
        | none => exact absurd (he ▸ List.getElem_mem hlt) hw.noNull
        | some c => exact absurd (by rw [List.getElem?_eq_getElem hlt,he]) (h c)
      | @done c conn w1 h hconn hs hn hfds hl =>
        refine ⟨⟨?_,?_,?_⟩,?_⟩
        · rw [World.note_toProcess,hs]
          intro hn
          obtain hn | hn := List.mem_or_eq_of_mem_set hn
          · exact hw.noNull hn
          · cases hn
        · simp only [World.note_toProcess,hs]
          intro x hx hxc
          obtain rfl | hx := mem_entries_set h hx
          · exact hw.flagged c (mem_of_getElem? h) hxc
          · exact hw.flagged x hx hxc
        · rw [World.note_log]
          obtain ⟨-,hl⟩ | ⟨-,p,-,hl⟩ := hl
          · rw [hl]
            exact hw.regular.append (by simp)
          · rw [hl]
            exact (hw.regular.append (by simp)).append (by simp)
        · simp only [World.note_toProcess,hs,List.length_set]
          omega
      | cut hl => exact .same hw hl
    · obtain ⟨hw,hlen⟩ := hw
      refine (acts_runHandler w w .refl).mono (fun _ w' h => ⟨h.whole hw,h.length.trans hlen⟩)
        fun e w' h => ?_
      refine ⟨?_,(h.1.whole hw).regular⟩
      obtain rfl | ⟨-,hn⟩ := h.2
      · exact Or.inl rfl
      · exact absurd hn (h.1.whole hw).noNull

/-- The end of a run: in order, or lost after a sweep that was not regular. -/
def Settled (e : Halt) (w : World) : Prop := Orderly e w ∨ Lost e w

/-- std::remove_if leaves no empty pointer exactly if the marked entries are the last ones. -/
theorem removeDisconnected_whole {w : World} (hn : none ∉ w.server.clients) :
    Holds (fun first w' => (MarkedLast (entries w.server.clients) ∧ w' = w ∧
        first ≤ w.server.clients.length) ∨
      (¬MarkedLast (entries w.server.clients) ∧ none ∈ w'.server.clients.drop first ∧
        first ≤ w'.server.clients.length ∧ w.log <+: w'.log))
      (fun e w' => e = .cut ∧ ∃ new, w'.log = w.log++new ∧ Closes new)
      (removeDisconnected.run w) := by
  have h := removeDisconnected_cases w hn
  have hlast : MarkedLast (entries w.server.clients) →
      ∃ n, removeDisconnected.run w = (.ok n, w) := by
    intro hm
    have hcs : w.server.clients = ((entries w.server.clients).filter (·.isConnected)).map some++
        (gone (entries w.server.clients)).map some := by
      rw [← List.map_append,← hm.split,map_some_reduceOption hn]
    exact ⟨_,removeDisconnected_last hcs (fun c hc => (List.mem_filter.mp hc).2)
      fun c hc => by simpa [gone] using (List.mem_filter.mp hc).2⟩
  generalize removeDisconnected.run w = r at h hlast ⊢
  cases h with
  | @clean kept marked h hkept hgone =>
    refine Or.inl ⟨?_,rfl,by simp [h]⟩
    have he : entries w.server.clients = entries kept++entries marked := by
      rw [h]
      exact List.reduceOption_append _ _
    rw [he]
    exact .of_split (fun c hc => hkept c (List.reduceOption_mem_iff.mp hc))
      fun c hc => hgone c (List.reduceOption_mem_iff.mp hc)
  | @moved kept gap w' hnone hsub hgap hs hnext hl =>
    have hcs : w'.server.clients = kept++gap := by rw [hs]
    refine Or.inr ⟨fun hm => ?_,?_,by simp [hcs],?_⟩
    · obtain ⟨n,hr⟩ := hlast hm
      cases hr
      exact hn (by rw [hcs]; exact List.mem_append_right _ hnone)
    · rw [hcs,List.drop_left]
      exact hnone
    · obtain ⟨new,hl,-⟩ := hl
      exact ⟨new,hl.symm⟩
  | cut hl => exact ⟨rfl,hl⟩

theorem safe_destroyClient (c : Option ClientInfo) : Safe (destroyClient c) := by
  intro w hw
  obtain ⟨w',hr,hs,-,new,hl,hcl⟩ | ⟨w',hr,hl⟩ := destroyClient_closes c w
  · rw [hr]
    exact hw.same (by rw [hs]) (by rw [hs]) (hw.regular.inner ⟨new,hl,hcl.isInner true⟩)
  · rw [hr]
    exact .same hw hl

theorem safe_eraseFrom (first : Nat) : Safe (eraseFrom first) := by
  refine Triple.get_bind fun w hw => ?_
  refine (Triple.forM safe_destroyClient _).bind (fun _ => Triple.modify fun w hw => ?_) w hw
  have hsub := entries_take w.server.clients first
  exact ⟨fun hn => hw.noNull (List.mem_of_mem_take hn),fun c hc => hw.flagged c (hsub.subset hc),
    hw.regular⟩

/-- The sweep once the flag has been found set. -/
def removal : Net Unit :=
  removeDisconnected >>= fun first => server >>= fun s =>
    disconnectFrom (s.clients.length-first) first >>= fun _ => eraseFrom first

theorem removal_last : Triple (fun w => Whole w ∧ MarkedLast (entries w.server.clients)) removal
    (fun _ => Whole) Orderly := by
  refine Triple.bind (Q := fun first w => Whole w ∧ first ≤ w.server.clients.length)
    (fun w hw => ?_) fun first => Triple.get_bind fun w hw => ?_
  · obtain ⟨hw,hm⟩ := hw
    refine (removeDisconnected_whole hw.noNull).mono (fun first w' h => ?_) fun e w' h => ?_
    · obtain ⟨-,rfl,hle⟩ | ⟨hnot,-⟩ := h
      · exact ⟨hw,hle⟩
      · exact absurd hm hnot
    · obtain ⟨rfl,new,hl,hcl⟩ := h
      exact .cut hw ⟨new,hl,hcl.isInner true⟩
  · have hlen : w.server.clients.length = first+(w.server.clients.length-first) := by
      have hle := hw.2
      omega
    exact (safe_disconnectFrom _ first).bind (fun _ => safe_eraseFrom first) w ⟨hw.1,hlen⟩

theorem removal_first : Triple (fun w => none ∉ w.server.clients ∧
    ¬MarkedLast (entries w.server.clients) ∧ ¬Regular w.log) removal (fun _ _ => False) Lost := by
  refine Triple.bind (Q := fun first w => none ∈ w.server.clients.drop first ∧
    first ≤ w.server.clients.length ∧ ¬Regular w.log) (fun w hw => ?_) fun first =>
    Triple.get_bind fun w hw => ?_
  · obtain ⟨hn,hm,ht⟩ := hw
    refine (removeDisconnected_whole hn).mono (fun first w' h => ?_) fun e w' h => ?_
    · obtain ⟨hlast,-⟩ | ⟨-,hnone,hle,hl⟩ := h
      · exact absurd hlast hm
      · exact ⟨hnone,hle,fun ht' => ht (ht'.restrict hl)⟩
    · obtain ⟨rfl,new,hl,-⟩ := h
      exact ⟨Or.inl rfl,fun ht' => ht (ht'.restrict ⟨new,hl.symm⟩)⟩
  · obtain ⟨hnone,hle,ht⟩ := hw
    exact (disconnectFrom_blocked _ first).bind (fun _ _ h => h.elim) w ⟨hnone,by omega,ht⟩

/-- The sweep ends in order with a whole vector if the marked entries are the last ones, and
never ends otherwise. -/
theorem handleDisconnectedClients_settled :
    Triple Whole handleDisconnectedClients (fun _ => Whole) Settled := by
  intro w hw
  have hrun : handleDisconnectedClients.run w =
      (if w.server.hasDisconnectedClients then removal else pure ()).run (w.note .sweep) := rfl
  rw [hrun]
  by_cases hm : MarkedLast (entries w.server.clients)
  · have hw' : Whole (w.note .sweep) := by
      refine hw.same rfl rfl fun o ho he => ?_
      obtain ho | ho := List.mem_append.mp ho
      · exact hw.regular o ho he
      · rw [List.mem_singleton.mp ho]
        exact hm
    by_cases hd : w.server.hasDisconnectedClients = true
    · rw [if_pos hd]
      exact (removal_last _ ⟨hw',hm⟩).mono (fun _ _ h => h) fun _ _ h => Or.inl h
    · rw [if_neg hd]
      exact hw'
  · have hd : w.server.hasDisconnectedClients = true := by
      by_contra hd
      refine hm (List.pairwise_of_forall_mem_list fun c hc _ _ _ => ?_)
      by_contra hcc
      exact hd (hw.flagged c hc (by simpa using hcc))
    have hirregular : ¬Regular (w.note .sweep).log := fun ht =>
      hm (ht ⟨.sweep,w.toProcess⟩ (List.mem_append_right _ (List.mem_singleton.mpr rfl)) rfl)
    rw [if_pos hd]
    exact (removal_first (w.note .sweep) ⟨hw.noNull,hm,hirregular⟩).mono
      (fun _ _ h => h.elim) fun _ _ h => Or.inr h

/-! The run. -/

theorem settled_of_safe {α : Type} {m : Net α} (h : Safe m) :
    Triple Whole m (fun _ => Whole) Settled :=
  h.mono (fun _ hw => hw) (fun _ _ h => h) fun _ _ h => Or.inl h

theorem safe_emit {e : Event} (he : e ≠ .sweep) : Safe (emit e) :=
  Triple.modify fun _ hw => hw.same rfl rfl (hw.regular.append (by simpa using he))

theorem networkLoop_settled (fuel : Nat) :
    Triple Whole (networkLoop fuel) (fun _ => Whole) Settled := by
  have hload := settled_of_safe safe_loadRunning
  induction fuel with
  | zero =>
    refine hload.bind fun _ => .ite (fun _ => ?_) fun _ => Triple.pure fun _ h => h
    exact Triple.stop fun w hw => Or.inl ⟨Or.inr rfl,hw.regular⟩
  | succ fuel ih =>
    refine hload.bind fun _ => .ite (fun _ => ?_) fun _ => Triple.pure fun _ h => h
    refine (settled_of_safe (safe_emit (by decide))).bind fun _ => ?_
    refine (settled_of_safe (safe_handleIncomingConnections fuel)).bind fun _ => ?_
    refine (settled_of_safe (safe_pollClients.bind safe_handleEvents)).bind fun _ => ?_
    exact handleDisconnectedClients_settled.bind fun _ => ih

theorem safe_closeAcceptor : Safe closeAcceptor := by
  intro w hw
  obtain ⟨a,new,w',hr,-,hs,-,hl,hcl,-⟩ | ⟨w',hr,hl⟩ := closeAcceptor_cases w
  · rw [hr]
    exact hw.same (by rw [hs]) (by rw [hs]) (hw.regular.inner ⟨new,hl,hcl.isInner true⟩)
  · rw [hr]
    exact .same hw hl

end Server

theorem Environment.whole_initial (env : Environment) : Whole env.initial :=
  ⟨List.not_mem_nil,by simp [initial,Server.create],by simp [Regular,initial]⟩

theorem Environment.settled (env : Environment) (fuel : Nat) {w : World}
    (ho : Server.openAcceptor.run env.initial = (.ok (), w)) :
    Prog.Holds (fun _ => Whole) Server.Settled (env.run fuel) := by
  unfold run Server.networkThreadFunction
  rw [Prog.bind_ok ho]
  have hw : Whole w := by
    obtain ⟨w',hr,hl,-,a,hs⟩ | ⟨e,w',hr,-⟩ := Server.openAcceptor_cases env.initial
    · rw [ho] at hr
      cases hr
      exact env.whole_initial.same (by rw [hs]) (by rw [hs])
        (by rw [hl]; exact env.whole_initial.regular)
    · rw [ho] at hr
      cases hr
  exact (Server.networkLoop_settled fuel).bind (fun _ =>
    Server.settled_of_safe Server.safe_closeAcceptor) w hw

/-- A run dereferences an empty pointer only if a sweep found a marked entry before one that
is not marked. After such a sweep every run ends so, unless an answer is missing first. -/
theorem Environment.crashes (env : Environment) (fuel : Nat) :
    ((env.run fuel).1 = .error .crash → ∃ o ∈ env.log fuel, o.event = .sweep ∧
      ¬MarkedLast (entries o.state.server.clients)) ∧
    ((∃ o ∈ env.log fuel, o.event = .sweep ∧ ¬MarkedLast (entries o.state.server.clients)) →
      (env.run fuel).1 = .error .crash ∨ (env.run fuel).1 = .error .cut) := by
  have hregular : (∃ o ∈ env.log fuel, o.event = .sweep ∧
      ¬MarkedLast (entries o.state.server.clients)) ↔ ¬Regular (env.run fuel).2.log := by
    simp [Regular,log]
  rw [hregular]
  obtain ⟨w,ho,-⟩ | ⟨e,w,ho,hl,he⟩ := Server.openAcceptor_cases env.initial
  · have h := env.settled fuel ho
    generalize env.run fuel = r at h ⊢
    cases r with
    | mk r w => cases r with
      | ok a => exact ⟨fun h => (nomatch h),fun ht => absurd h.regular ht⟩
      | error e =>
        obtain ⟨he,ht⟩ | ⟨he,ht⟩ := h
        · refine ⟨fun h => ?_,fun hn => absurd ht hn⟩
          cases h
          obtain he | he := he <;> cases he
        · refine ⟨fun _ => ht,fun _ => ?_⟩
          obtain rfl | rfl := he
          · exact Or.inr rfl
          · exact Or.inl rfl
  · have hrun : env.run fuel = (.error e, w) := Prog.bind_error ho
    have hw : Regular w.log := by
      rw [hl]
      exact env.whole_initial.regular
    rw [hrun]
    refine ⟨fun h => ?_,fun hn => absurd hw hn⟩
    cases h
    obtain he | he := he <;> cases he

end Yonaa
