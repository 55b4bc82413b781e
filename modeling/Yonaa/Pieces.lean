import Yonaa.Moves

/-! The steps of a run as the history shows them: accepting a connection, sending a
message and receiving data leave their own records, every other step leaves plain ones. -/
namespace Yonaa

/-- The records of steps that neither accept, send nor receive. -/
def Event.isPlain : Event → Prop
  | .sys (.close _) | .sys (.poll _ _) | .callback (.disconnect _) => True
  | .marked _ | .stopped | .iteration | .sweep => True
  | _ => False

theorem plain_single {e : Event} {p : Process} (h : e.isPlain) :
    ∀ o ∈ [(⟨e,p⟩ : Observation)], o.event.isPlain := List.forall_mem_singleton.mpr h

/-- A connected entry with an open connection was there before. -/
def Stays (w w' : World) : Prop :=
  ∀ d ∈ entries w'.server.clients, d.isConnected = true → d.conn.socket ≠ 0 →
    d ∈ entries w.server.clients

theorem Stays.of_clients {w w' : World} (h : w'.server.clients = w.server.clients) :
    Stays w w' := fun d hd _ _ => by rw [← h]; exact hd

theorem Stays.refl (w : World) : Stays w w := .of_clients rfl

theorem Stays.of_set {w w' : World} {i : Nat} {c c' : ClientInfo}
    (hi : w.server.clients[i]? = some (some c))
    (hcs : w'.server.clients = w.server.clients.set i (some c'))
    (hc : c'.isConnected = false ∨ c'.conn.socket = 0) : Stays w w' := by
  intro d hd hdc hd0
  rw [hcs] at hd
  obtain rfl | hd := mem_entries_set hi hd
  · obtain hc | hc := hc
    · rw [hc] at hdc
      cases hdc
    · exact absurd hc hd0
  · exact hd

theorem Stays.trans {w w' w'' : World} (h : Stays w w') (h' : Stays w' w'') : Stays w w'' :=
  fun d hd hc h0 => h d (h' d hd hc h0) hc h0

theorem Stays.mark {w : World} {i : Nat} {c : ClientInfo}
    (h : w.server.clients[i]? = some (some c)) : Stays w (w.mark i c) :=
  .of_set h rfl (Or.inl rfl)

open Server in
inductive Piece : Point × World → Point × World → Prop where
  | plain {p q : Point} {w w' : World} {new : List Observation} (hlog : w'.log = w.log++new)
      (hnew : ∀ o ∈ new, o.event.isPlain) (hstay : q = .dead ∨ Stays w w') :
      Piece (p,w) (q,w')
  | accepted {w : World} {r : Except Halt Bool × World} (h : Admitted w r) :
      Piece (.accepting,w) (Point.accepting.orDead r.1,r.2)
  | messaged {p : Point} {w : World} {r : Except Halt Unit × World} {msg : Buffer}
      {id : ClientId} (hp : p.live) (h : Messaged msg id w r) : Piece (p,w) (p.orDead r.1,r.2)
  | received {w : World} {r : Except Halt Bool × World} {e : SocketStatusInfo}
      {es : PollResult} (hrun : w.server.running = true) (h : Handled e w r) :
      Piece (.events (e::es),w) ((Point.events es).orDead r.1,r.2)

theorem Piece.silent {p q : Point} {w w' : World} (hlog : w'.log = w.log)
    (hstay : q = .dead ∨ Stays w w') : Piece (p,w) (q,w') := by
  have hlog : w'.log = w.log++[] := by simp [hlog]
  exact .plain hlog (by simp) hstay

theorem Piece.note {p q : Point} {w : World} {e : Event} (h : e.isPlain) :
    Piece (p,w) (q,w.note e) := .plain rfl (plain_single h) (Or.inr (.of_clients rfl))

theorem Server.Closes.isPlain {new : List Observation} (h : Server.Closes new) :
    ∀ o ∈ new, o.event.isPlain := by
  intro o ho
  obtain ⟨fd,he⟩ := h o ho
  rw [he]
  trivial

open Server in
theorem Action.piece {p : Point} {w : World} {r : Except Halt Unit × World} (hp : p.live)
    (h : Action w r) : Piece (p,w) (p.orDead r.1,r.2) := by
  cases h with
  | inputs hs ss => exact .silent rfl (Or.inr (.of_clients rfl))
  | stop => exact .plain rfl (plain_single trivial) (Or.inr (.of_clients rfl))
  | message msg id => exact .messaged hp (messageClient_cases msg id w)
  | remove id =>
    have hc := removeClient_cases id w
    generalize (removeClient id).run w = r at hc ⊢
    cases hc with
    | missing h => exact .silent rfl (Or.inr (.refl w))
    | crash h => exact .silent rfl (Or.inl rfl)
    | marked h =>
      exact .plain rfl (plain_single trivial) (Or.inr (.mark (find_found h).1))

open Server in
theorem Step.piece {x y : Point × World} (hx : Base x) (h : Step x y) : Piece x y := by
  cases h with
  | @opening w =>
    obtain ⟨w',hr,hl,hn,a,hs⟩ | ⟨e,w',hr,hl,-⟩ := openAcceptor_cases w
    · rw [hr]
      exact .silent hl (Or.inr (.of_clients (by rw [hs])))
    · rw [hr]
      exact .silent hl (Or.inl rfl)
  | action hp ha => exact ha.piece hp
  | enter h => exact .note trivial
  | leave h => exact .silent rfl (Or.inr (.refl _))
  | @pending w h =>
    obtain ⟨b,w',hr,hq,pfds,n,hl⟩ | ⟨w',hr,hq,hl⟩ := hasPendingConnection_quiet w
    · rw [hr]
      exact .plain hl (plain_single trivial) (Or.inr (.of_clients hq.clients))
    · rw [hr]
      exact .silent hl (Or.inl rfl)
  | @accept w h => exact .accepted (acceptClient_cases w)
  | @poll w w' es h =>
    obtain ⟨es',w1,hr,hp⟩ | ⟨w1,hr,hl⟩ := pollClients_cases w
    · rw [hr] at h
      cases h
      obtain ⟨pfds,n,hl⟩ := hp.log
      obtain ⟨g,-,hs⟩ := hp.server
      exact .plain hl (plain_single trivial) (Or.inr (.of_clients (by rw [hs])))
    · rw [hr] at h
      cases h
  | @pollCut w w' e h =>
    obtain ⟨es',w1,hr,hp⟩ | ⟨w1,hr,hl⟩ := pollClients_cases w
    · rw [hr] at h
      cases h
    · rw [hr] at h
      cases h
      exact .silent hl (Or.inl rfl)
  | @event w e es h => exact .received h (handleEvent_cases e w)
  | sweep => exact .note trivial
  | skip h => exact .silent rfl (Or.inr (.refl _))
  | @part w w' first h hr =>
    have hc := removeDisconnected_cases w hx.2.noNull
    rw [hr] at hc
    cases hc with
    | clean hcs hkept hgone => exact .silent rfl (Or.inr (.refl _))
    | @moved kept gap _ hnone hsub hgap hs hn hlog =>
      obtain ⟨new,hlog,hnew⟩ := hlog
      refine .plain hlog hnew.isPlain (Or.inr ?_)
      intro d hd _ _
      rw [hs] at hd
      exact hsub.subset hd
  | @partCut w w' e hr =>
    have hc := removeDisconnected_cases w hx.2.noNull
    rw [hr] at hc
    cases hc with
    | cut hlog =>
      obtain ⟨new,hlog,hnew⟩ := hlog
      exact .plain hlog hnew.isPlain (Or.inl rfl)
  | @disconnect w first n i =>
    have hc := disconnectClient_cases i w
    generalize (disconnectClient i).run w = r at hc ⊢
    cases hc with
    | crash h => exact .silent rfl (Or.inl rfl)
    | @done c conn w1 h hconn hs hn hfds hlog =>
      have hstay : Stays w (w1.note (.callback (.disconnect c.id))) :=
        .of_set h (congrArg Server.clients hs) (Or.inr hconn)
      obtain ⟨-,hlog⟩ | ⟨-,p,-,hlog⟩ := hlog
      · have hl : (w1.note (.callback (.disconnect c.id))).log =
            w.log++[⟨.callback (.disconnect c.id),w1.toProcess⟩] := by
          rw [World.note_log,hlog]
        exact .plain hl (plain_single trivial) (Or.inr hstay)
      · have hl : (w1.note (.callback (.disconnect c.id))).log = w.log++
            [⟨.sys (.close c.conn.socket),p⟩,⟨.callback (.disconnect c.id),w1.toProcess⟩] := by
          rw [World.note_log,hlog,List.append_assoc]
          rfl
        exact .plain hl (List.forall_mem_cons.mpr ⟨trivial,plain_single trivial⟩) (Or.inr hstay)
    | cut hlog => exact .silent hlog (Or.inl rfl)
  | @erase w first i =>
    obtain ⟨hs,hsweep⟩ := hx
    have hr := hsweep.erases
    rw [hr]
    refine .silent rfl (Or.inr ?_)
    intro d hd _ _
    exact (entries_take _ first).subset hd
  | @closing w =>
    obtain ⟨a,new,w',hr,ha,hs,hn,hl,hnew,hf⟩ | ⟨w',hr,hl⟩ := closeAcceptor_cases w
    · rw [hr]
      exact .plain hl hnew.isPlain (Or.inr (.of_clients (by rw [hs])))
    · rw [hr]
      exact .silent hl (Or.inl rfl)

theorem Step.alive {x y : Point × World} (h : Step x y) : x.1 ≠ .dead := by
  cases h with
  | action hp ha => exact hp.alive
  | _ => exact fun h => nomatch h

end Yonaa
