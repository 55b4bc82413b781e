import Yonaa.Deeds
import Yonaa.Shutdown

/-! What a client tells its user: the order of its callbacks in every run, as a machine of its
own, and how soon its network thread ends after `disconnect`. -/
namespace Yonaa
namespace Client
open Machine

/-- What the user knows of the network thread. -/
inductive Phase where
  | fresh      -- `on_connect_` has not been called
  | waiting    -- the last iteration of the loop has made its callback
  | working    -- the last iteration has made no callback so far
  | over       -- the last `on_disconnect_` was called
  | dead       -- the process has ended
deriving DecidableEq

def Phase.isLooping (phase : Phase) : Prop := phase = .waiting ∨ phase = .working

def Event.isHidden : Event → Prop
  | .sys _ | .performs _ | .message _ | .disconnect .user => True
  | _ => False

inductive Phase.Next : Phase → Event → Phase → Prop where
  | hidden {phase : Phase} {e : Event} (he : e.isHidden) (h : phase ≠ .dead) : Next phase e phase
  | exit : Next .fresh .exit .dead
  | connect : Next .fresh .connect .waiting
  | iteration {phase : Phase} (h : phase.isLooping) : Next phase .iteration .working
  | data {data : Buffer} (h0 : data.size ≠ 0) (hmax : data.size ≤ Connection.maxBufferSize) :
      Next .working (.dataReceive data) .waiting
  | lost : Next .working (.disconnect .network) .waiting
  | last {phase : Phase} (h : phase.isLooping) : Next phase (.disconnect .network) .over

/-- A log of what can be seen, and where it leads. -/
inductive Seen : List Event → Phase → Prop where
  | nil : Seen [] .fresh
  | snoc {log : List Event} {e : Event} {phase phase' : Phase} (h : Seen log phase)
      (he : phase.Next e phase') : Seen (log++[e]) phase'

theorem Seen.append {log new : List Event} {phase : Phase} (h : Seen log phase)
    (hnew : ∀ e ∈ new, phase.Next e phase) : Seen (log++new) phase := by
  induction new using List.reverseRecOn with
  | nil =>
    rw [List.append_nil]
    exact h
  | append_singleton new e ih =>
    rw [← List.append_assoc]
    exact (ih fun x hx => hnew x (List.mem_append_left _ hx)).snoc (hnew e (by simp))

def Event.isCallback : Event → Bool
  | .connect | .dataReceive _ | .disconnect .network => true
  | _ => false

/-- The callbacks that have been made for sure where a phase has been reached, over those of
the iterations. -/
def Phase.extra : Phase → Nat
  | .fresh | .dead | .working => 0
  | .waiting => 1
  | .over => 2

theorem Phase.Next.callbacks {phase phase' : Phase} {e : Event} (h : phase.Next e phase') :
    [e].countP Event.isCallback+phase.extra ≤ [e].count .iteration+phase'.extra := by
  cases h with
  | iteration hl => obtain rfl | rfl := hl <;> decide
  | last hl => obtain rfl | rfl := hl <;> decide
  | hidden he _ =>
    have hquiet : Event.isCallback e = false := by
      unfold Event.isCallback
      split <;> first | exact he.elim | rfl
    simp [hquiet]
  | data _ _ => exact Nat.le_add_left _ _
  | _ => decide

theorem Seen.callbacks {log : List Event} {phase : Phase} (h : Seen log phase) :
    log.countP Event.isCallback ≤ log.count .iteration+phase.extra := by
  induction h with
  | nil => exact Nat.le_refl 0
  | snoc h he ih =>
    have hnext := he.callbacks
    rw [List.countP_append,List.count_append]
    omega

def Stands : Point → Phase → Prop
  | .absent, phase | .resolving, phase | .resolved _, phase | .connecting _, phase
  | .connected, phase | .announcing, phase => phase = .fresh
  | .head, phase | .closing, phase | .leaving, phase => phase.isLooping
  | .checking, phase | .polling, phase | .receiving, phase => phase = .working
  | .received data, phase => phase = .working ∧ data.size ≤ Connection.maxBufferSize
  | .ended, phase => phase = .over
  | .exited, phase => phase = .dead

theorem Stands.alive {p : Point} {phase : Phase} (h : Stands p phase) (hp : p ≠ .exited) :
    phase ≠ .dead := by
  rintro rfl
  cases p with
  | exited => exact hp rfl
  | received data => cases h.1
  | head | closing | leaving => obtain h | h := h <;> cases h
  | _ => cases h

theorem Deed.small {w w' : World} {data : Buffer} {new : List Event}
    (h : Deed .receiving w (.received data) w' new) : data.size ≤ Connection.maxBufferSize := by
  have hempty : Point.buffer (.received data) = [] → data.size ≤ Connection.maxBufferSize := by
    intro hbuf
    by_cases h0 : data.size = 0
    · exact h0 ▸ Nat.zero_le _
    · rw [Point.buffer,if_neg h0] at hbuf
      cases hbuf
  cases h with
  | early hp _ => exact hp.elim
  | still hq _ _ _ _ _ => exact hempty hq.buffer
  | received _ hq _ _ hsize hmax _ _ _ =>
    cases hq
    exact (List.length_take_le' _ _).trans (hmax ▸ hsize)
  | closed _ _ hbuf _ _ _ _ => exact hempty hbuf.1
  | unread _ hq _ _ _ =>
    cases hq
    exact Nat.zero_le _
  | passed hp _ _ _ _ _ => cases hp
  | dropped hp _ _ _ _ => cases hp

/-- What a turn shows is what can be seen next. -/
theorem Turn.seen {w w' : World} {p q : Point} {new : List Event} (h : Turn w p new w' q)
    (hd : Deed p w q w' new) {log : List Event} {phase : Phase} (hs : Seen log phase)
    (hp : Stands p phase) : ∃ phase', Seen (log++new) phase' ∧ Stands q phase' := by
  have hstay : phase ≠ .dead → ∀ calls : List SysCall, Seen (log++calls.map .sys) phase :=
    fun hne calls => hs.append (List.forall_mem_map.mpr fun c _ => .hidden trivial hne)
  cases h with
  | resolve _ =>
    cases hp
    exact ⟨_,hs.snoc (.hidden trivial (by decide)),rfl⟩
  | connect _ =>
    cases hp
    exact ⟨_,hs.snoc (.hidden trivial (by decide)),rfl⟩
  | exit hpoint _ =>
    obtain rfl | ⟨es,rfl⟩ := hpoint
    · cases hp
      exact ⟨_,hs.snoc .exit,rfl⟩
    · cases hp
      exact ⟨_,hs.snoc .exit,rfl⟩
  | announce =>
    cases hp
    exact ⟨_,hs.snoc .connect,.inl rfl⟩
  | iterate _ => exact ⟨_,hs.snoc (.iteration hp),rfl⟩
  | lost _ =>
    cases hp
    exact ⟨_,hs.snoc .lost,.inl rfl⟩
  | @poll pfds n _ _ _ hq =>
    cases hp
    refine ⟨_,hstay (by decide) [.poll pfds n],?_⟩
    obtain rfl | rfl := hq
    · exact .inr rfl
    · rfl
  | @receive data _ _ _ hr =>
    cases hp
    have hsize := hd.small
    cases hr with
    | data _ _ => exact ⟨_,hstay (by decide) [_],rfl,hsize⟩
    | failed => exact ⟨_,hstay (by decide) [_],rfl,hsize⟩
    | closed => exact ⟨_,hstay (by decide) [_,_],rfl,hsize⟩
    | guard => exact ⟨_,hstay (by decide) [],rfl,hsize⟩
  | fail _ =>
    cases hp.1
    exact ⟨_,hs.snoc .lost,.inl rfl⟩
  | pass _ h0 =>
    cases hp.1
    exact ⟨_,hs.snoc (.data h0 hp.2),.inl rfl⟩
  | @closed fd _ _ =>
    exact ⟨_,hstay (hp.alive (by simp)) [.close fd],hp⟩
  | last => exact ⟨_,hs.snoc (.last hp),rfl⟩
  | leave _ => exact ⟨phase,by rwa [List.append_nil],hp⟩
  | close _ => exact ⟨phase,by rwa [List.append_nil],hp⟩
  | check _ => exact ⟨phase,by rwa [List.append_nil],hp⟩
  | resolved _ => exact ⟨phase,by rwa [List.append_nil],hp⟩
  | connected _ => exact ⟨phase,by rwa [List.append_nil],hp⟩

/-- The log so far is one that can be seen, and the thread is where it says. -/
structure Shown (s : State) : Prop where
  seen : ∃ phase, Seen s.world.log phase ∧ Stands s.point phase
  exited : s.point = .exited → s.halted = true

theorem Shown.hidden {s t : State} {new : List Event} (hs : Shown s) (hhalted : s.halted = false)
    (hlog : t.world.log = s.world.log++new) (hp : t.point = s.point)
    (hnew : ∀ e ∈ new, e.isHidden) : Shown t := by
  obtain ⟨phase,hseen,hstands⟩ := hs.seen
  have hne : s.point ≠ .exited := fun hp => by
    rw [hs.exited hp] at hhalted
    cases hhalted
  refine ⟨⟨phase,?_,hp ▸ hstands⟩,fun h => absurd (hp ▸ h) hne⟩
  rw [hlog]
  exact hseen.append fun e he => .hidden (hnew e he) (hstands.alive hne)

theorem Shown.step {s t : State} {a : Act} (hs : Shown s) (h : step s a = some t) : Shown t := by
  obtain ⟨⟨hhalted,-⟩,new,hm⟩ := step_moved h
  obtain ⟨new',hlog,hd⟩ := step_deed h
  have hmessage : ∀ (msg : Buffer) (calls : List SysCall),
      ∀ e ∈ Event.message msg::calls.map .sys, e.isHidden := fun msg calls =>
    List.forall_mem_cons.mpr ⟨trivial,List.forall_mem_map.mpr fun _ _ => trivial⟩
  have hnil : ∀ e ∈ ([] : List Event), e.isHidden := List.forall_mem_nil _
  have hm' := hm
  cases hm' with
  | connect hp =>
    obtain ⟨phase,hseen,hstands⟩ := hs.seen
    rw [hp] at hstands
    exact ⟨⟨phase,hseen,hstands⟩,fun h => by cases h⟩
  | terminate hp => exact hs.hidden hhalted hm.log rfl hnil
  | disconnect => exact hs.hidden hhalted hm.log rfl hnil
  | sent _ _ => exact hs.hidden hhalted hm.log rfl (hmessage _ _)
  | sending _ _ => exact hs.hidden hhalted hm.log rfl (hmessage _ _)
  | clear _ _ => exact hs.hidden hhalted hm.log rfl hnil
  | report _ _ => exact hs.hidden hhalted hm.log rfl (List.forall_mem_singleton.mpr trivial)
  | destroy _ => exact hs.hidden hhalted hm.log rfl hnil
  | blocked _ _ hnew =>
    refine hs.hidden hhalted hm.log rfl fun e he => ?_
    have hsilent := hnew e he
    cases e with
    | sys call => trivial
    | performs b => trivial
    | _ => exact hsilent.elim
  | net hturn =>
    obtain ⟨phase,hseen,hstands⟩ := hs.seen
    have hsame : new' = new := List.append_cancel_left (hlog.symm.trans hm.log)
    rw [hsame] at hd
    obtain ⟨phase',hseen',hstands'⟩ := hturn.seen hd hseen hstands
    refine ⟨⟨phase',?_,hstands'⟩,fun h => ?_⟩
    · rw [hm.log]
      exact hseen'
    · exact decide_eq_true h

/-- The order of the callbacks of a client, for every interleaving of the user's calls with
the network thread. -/
theorem callbacks_ordered (running : Bool) (kernel : Kernel) (answers : List Answer)
    {as : List Act} {t : State} (h : run step (initial running kernel answers) as = some t) :
    ∃ phase, Seen t.world.log phase ∧ Stands t.point phase ∧
      t.world.log.countP Event.isCallback ≤ t.world.log.count .iteration+phase.extra := by
  have h0 : Shown (initial running kernel answers) := ⟨⟨.fresh,.nil,rfl⟩,fun h => by cases h⟩
  have ht : Shown t := run_invariant (fun s a t hs ht => hs.step ht) h0 h
  obtain ⟨phase,hseen,hstands⟩ := ht.seen
  exact ⟨phase,hseen,hstands,hseen.callbacks⟩

/-- A buffer is passed on before the user disconnects. -/
theorem callbacks_ordered_received : ∃ t phase,
    run step (initial true ⟨[],0,[]⟩ (connects++[.poll (.ok [POLLOUT]),.recv (.ok [7,8])]))
      (opening++List.replicate 5 .net) = some t ∧ Seen t.world.log phase := by
  obtain ⟨t,ht⟩ : ∃ t,
      run step (initial true ⟨[],0,[]⟩ (connects++[.poll (.ok [POLLOUT]),.recv (.ok [7,8])]))
        (opening++List.replicate 5 .net) = some t := ⟨_,rfl⟩
  obtain ⟨phase,hseen,-⟩ := callbacks_ordered true ⟨[],0,[]⟩ _ ht
  exact ⟨t,phase,ht,hseen⟩

/-! The way out. -/

/-- The operations the network thread has left, once `running_` is false. -/
def Point.rank : Point → Nat
  | .ended | .exited => 0
  | .leaving => 1
  | .closing => 2
  | .head => 3
  | .announcing | .received _ => 4
  | .connected | .receiving => 5
  | .connecting _ | .polling => 6
  | .resolved _ | .checking => 7
  | .resolving => 8
  | .absent => 9

/-- The operations left of a run. -/
def State.left (s : State) : Nat := if s.halted = true then 0 else s.point.rank

theorem Turn.rank {w w' : World} {p q : Point} {new : List Event} (h : Turn w p new w' q)
    (hr : w.client.running = false) : q.rank+1 ≤ p.rank := by
  cases h with
  | exit hp _ =>
    obtain rfl | ⟨es,rfl⟩ := hp
    · exact Nat.le_add_left 1 4
    · exact Nat.le_add_left 1 6
  | iterate hrun =>
    rw [hr] at hrun
    cases hrun
  | poll _ hq => obtain rfl | rfl := hq <;> decide
  | announce => decide
  | leave _ => decide
  | lost _ => decide
  | check _ => decide
  | close _ => decide
  | closed _ => decide
  | last => decide
  | connected _ => decide
  | _ => exact Nat.le_refl _

/-- `disconnect` has begun, and the network thread is there. -/
structure Asked (s : State) : Prop where
  asked : s.asked = true
  running : s.world.client.running = false
  present : s.point ≠ .absent

theorem Moved.stopped {s t : State} {a : Act} {new : List Event} (h : Moved s a new t)
    (hs : s.asked = true → s.world.client.running = false) :
    t.asked = true → t.world.client.running = false := by
  cases h with
  | disconnect => exact fun _ => rfl
  | sent _ h => exact fun ht => h.running.trans (hs ht)
  | sending _ h => exact fun ht => h.running.trans (hs ht)
  | net h => exact fun ht => h.touch.running.trans (hs ht)
  | blocked _ h _ => exact fun ht => h.running.trans (hs ht)
  | _ => exact hs

theorem Moved.asked {s t : State} {a : Act} {new : List Event} (h : Moved s a new t)
    (hs : Asked s) : Asked t := by
  have hstopped := h.stopped fun _ => hs.running
  have hkeep : t.asked = true ∧ t.point ≠ .absent := by
    cases h with
    | connect hp => exact absurd hp hs.present
    | disconnect => exact ⟨rfl,hs.present⟩
    | net h => exact ⟨hs.asked,h.present.2⟩
    | _ => exact ⟨hs.asked,hs.present⟩
  exact ⟨hkeep.1,hstopped hkeep.1,hkeep.2⟩

theorem Point.rank_pos {p : Point} (hp : p.waits) : 1 ≤ p.rank := by
  cases p <;> first | exact hp.elim | exact Nat.le_add_left 1 _

theorem State.left_le (s : State) : s.left ≤ s.point.rank := by
  rw [left]
  split
  · exact Nat.zero_le _
  · exact Nat.le_refl _

/-- Every operation of the network thread leaves one less. -/
theorem Moved.left {s t : State} {a : Act} {new : List Event} (h : Moved s a new t)
    (hs : Asked s) (halive : s.halted = false) : [a].count .net+t.left ≤ s.left := by
  have hleft : s.left = s.point.rank := if_neg (by rw [halive]; decide)
  have hsame : t.point = s.point → [a].count .net = 0 → [a].count .net+t.left ≤ s.left := by
    intro hp ha
    have hle := t.left_le
    rw [hp] at hle
    omega
  cases h with
  | connect hp => exact absurd hp hs.present
  | @net _ w q h =>
    have hrank := h.rank hs.running
    have hle := State.left_le { s with world := w, point := q, halted := q = .exited }
    have hone : [Act.net].count .net = 1 := rfl
    simp only at hle
    omega
  | blocked hp _ _ =>
    rw [hleft]
    exact Point.rank_pos hp
  | _ => exact hsame rfl rfl

theorem run_left {s t : State} {as : List Act} (hs : Asked s)
    (h : run step s as = some t) : as.count .net+t.left ≤ s.left ∧ Asked t := by
  induction as generalizing s with
  | nil =>
    cases h
    exact ⟨by simp,hs⟩
  | cons a as ih =>
    obtain ⟨u,ha,hu⟩ := Option.bind_eq_some_iff.mp h
    obtain ⟨⟨halive,-⟩,new,hm⟩ := step_moved ha
    have hfirst := hm.left hs halive
    obtain ⟨hrest,ht⟩ := ih (hm.asked hs) hu
    rw [← List.singleton_append,List.count_append]
    exact ⟨by omega,ht⟩

/-- After `disconnect` the network thread makes at most eight more operations, whatever the
user does meanwhile, and can make the next one until it has ended. It need not end: the run is
over when it waits in an operation that the kernel does not answer, such as a ::recv. -/
theorem disconnect_bounds (running : Bool) (kernel : Kernel) (answers : List Answer)
    {as bs : List Act} {s t : State} (h : run step (initial running kernel answers) as = some s)
    (hasked : s.asked = true) (hp : s.point ≠ .absent) (ht : run step s bs = some t) :
    bs.count .net ≤ 8 ∧ (t.halted = true ∨ t.point = .ended ∨ ∃ u, step t .net = some u) := by
  have hstopped : s.asked = true → s.world.client.running = false := by
    refine run_invariant (I := fun s => s.asked = true → s.world.client.running = false) ?_
      (fun h => by cases h) h
    intro s a t hs hstep
    obtain ⟨-,new,hm⟩ := step_moved hstep
    exact hm.stopped hs
  obtain ⟨hcount,hpresent⟩ := run_left ⟨hasked,hstopped hasked,hp⟩ ht
  have hshown : Shown t := by
    refine run_invariant (fun s a t hs ht => Shown.step hs ht) ?_ (run_trans h ht)
    exact ⟨⟨.fresh,.nil,rfl⟩,fun h => by cases h⟩
  refine ⟨?_,?_⟩
  · have hle := s.left_le
    have hrank : s.point.rank ≤ 8 := by
      cases hpoint : s.point with
      | absent => exact absurd hpoint hp
      | _ => simp [Point.rank]
    omega
  · cases hhalted : t.halted with
    | true => exact .inl rfl
    | false =>
      refine .inr ?_
      by_cases hended : t.point = .ended
      · exact .inl hended
      · have hnext : ∃ m, next t.point = some m := by
          cases hpoint : t.point with
          | absent => exact absurd hpoint hpresent.present
          | ended => exact absurd hpoint hended
          | exited =>
            rw [hshown.exited hpoint] at hhalted
            cases hhalted
          | _ => exact ⟨_,rfl⟩
        obtain ⟨m,hm⟩ := hnext
        have hgo : ¬(t.halted = true ∨ t.gone) := by
          rintro (h | ⟨-,h | h⟩)
          · rw [hhalted] at h
            cases h
          · exact hpresent.present h
          · exact hended h
        exact .inr ⟨_,by rw [step,if_neg hgo,act,hm]; rfl⟩

/-- The user disconnects in the middle of an iteration. -/
theorem disconnect_bounds_polling : ∃ s t,
    run step (initial true ⟨[],0,[]⟩ (connects++[.poll (.ok [POLLOUT]),.recv (.ok [7,8]),
      .shutdown (.ok ()),.close (.ok ())])) (opening++[.net,.net,.disconnect]) = some s ∧
    run step s (List.replicate 6 .net) = some t ∧ t.point = .ended ∧
    (List.replicate 6 Act.net).count .net ≤ 8 := by
  obtain ⟨s,t,hs,hasked,hp,ht,hend⟩ : ∃ s t,
      run step (initial true ⟨[],0,[]⟩ (connects++[.poll (.ok [POLLOUT]),.recv (.ok [7,8]),
        .shutdown (.ok ()),.close (.ok ())])) (opening++[.net,.net,.disconnect]) = some s ∧
      s.asked = true ∧ s.point = .polling ∧ run step s (List.replicate 6 .net) = some t ∧
      t.point = .ended := ⟨_,_,rfl,rfl,rfl,rfl,rfl⟩
  exact ⟨s,t,hs,ht,hend,(disconnect_bounds true ⟨[],0,[]⟩ _ hs hasked (by rw [hp]; decide) ht).1⟩

end Client
end Yonaa
