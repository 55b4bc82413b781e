import Yonaa.ClientRuns

/-! The one error code of a client: what its network thread makes of errors that are not its
own. -/
namespace Yonaa
namespace Client
open Machine

def Event.isNetwork : Event → Bool
  | .message _ | .sys (.send _ _ _ _) | .disconnect .user => false
  | _ => true

def Event.received : Event → Option (List Byte)
  | .sys (.recv _ _ _ n bytes) => if 0 < n then some bytes else none
  | _ => none

/-- An event, after the last event of the network thread. -/
structure Fits (last : Option Event) (e : Event) : Prop where
  /-- The resolve or connect just performed has failed. -/
  exit : e = .exit → last = some (.performs false)
  /-- Received bytes are passed on at once. -/
  passed : ∀ bytes, last.bind Event.received = some bytes → e.isNetwork = true →
    e = .dataReceive (.ofList bytes)
  /-- What is passed on was just received. -/
  source : ∀ data, e = .dataReceive data →
    ∃ bytes, last.bind Event.received = some bytes ∧ data = .ofList bytes

def later (last : Option Event) (e : Event) : Option Event :=
  if e.isNetwork then some e else last

def lastOf (last : Option Event) (log : List Event) : Option Event := log.foldl later last

def FitsAll : Option Event → List Event → Prop
  | _, [] => True
  | last, e::log => Fits last e ∧ FitsAll (later last e) log

theorem fitsAll_append (last : Option Event) (log new : List Event) :
    FitsAll last (log++new) ↔ FitsAll last log ∧ FitsAll (lastOf last log) new := by
  induction log generalizing last with
  | nil => simp [FitsAll,lastOf]
  | cons e log ih =>
    rw [List.cons_append,FitsAll,FitsAll,ih,and_assoc]
    rfl

theorem lastOf_append (last : Option Event) (log new : List Event) :
    lastOf last (log++new) = lastOf (lastOf last log) new := List.foldl_append

theorem fitsAll_single (last : Option Event) (e : Event) : FitsAll last [e] ↔ Fits last e := by
  simp [FitsAll]

/-- Nothing received is left to be passed on. -/
def Idle (last : Option Event) : Prop := last.bind Event.received = none

/-- The network thread exits only when its own resolve or connect has failed, and passes on
everything it receives, once and at once. -/
def ErrorLocal (log : List Event) : Prop := FitsAll none log

/-- The network thread finds no code in `ec_` that its last operation has not left. -/
def ClearAt (c : Client) (last : Option Event) : Point → Prop
  | .resolved _ | .connected => last = some (.performs true) → c.ec.isSet = false
  | .received data => data.size ≠ 0 → c.ec.isSet = false
  | _ => True

def Clear (s : State) : Act → Prop
  | .net => ClearAt s.world.client (lastOf none s.world.log) s.point
  | _ => True

def Pending (last : Option Event) : Point → Prop
  | .resolved _ | .connected => ∃ b, last = some (.performs b)
  | .received data => (∃ bytes, last.bind Event.received = some bytes ∧ data = .ofList bytes ∧
      data.size ≠ 0) ∨ (Idle last ∧ data.size = 0)
  | _ => Idle last

theorem Fits.plain {last : Option Event} {e : Event} (hl : Idle last) (he : e ≠ .exit)
    (hd : ∀ data, e ≠ .dataReceive data) : Fits last e := by
  refine ⟨fun h => absurd h he,?_,fun data h => absurd h (hd data)⟩
  intro bytes h
  rw [Idle.eq_1,h] at hl
  cases hl

theorem Fits.foreign {last : Option Event} {e : Event} (he : e.isNetwork = false) :
    Fits last e := by
  refine ⟨?_,?_,?_⟩
  · intro h
    rw [h] at he
    cases he
  · intro bytes _ h
    rw [he] at h
    cases h
  · intro data h
    rw [h] at he
    cases he

theorem fitsAll_foreign {new : List Event} (h : ∀ e ∈ new, e.isNetwork = false)
    (last : Option Event) : FitsAll last new ∧ lastOf last new = last := by
  induction new generalizing last with
  | nil => exact ⟨trivial,rfl⟩
  | cons e new ih =>
    have he := h e List.mem_cons_self
    have hlater : later last e = last := by simp [later,he]
    obtain ⟨hfits,hlast⟩ := ih (fun e' he' => h e' (List.mem_cons_of_mem e he')) last
    refine ⟨⟨.foreign he,by rw [hlater]; exact hfits⟩,?_⟩
    rw [lastOf,List.foldl_cons,hlater]
    exact hlast

theorem fitsAll_plain {last : Option Event} {e : Event} (hl : Idle last) (he : e ≠ .exit)
    (hd : ∀ data, e ≠ .dataReceive data) : FitsAll last [e] :=
  (fitsAll_single last e).mpr (.plain hl he hd)

theorem Receipt.fits {data : Buffer} {new : List Event} (h : Receipt data new)
    {last : Option Event} (hl : Idle last) :
    FitsAll last new ∧ Pending (lastOf last new) (.received data) := by
  cases h with
  | @data fd size flags bytes hne hlen =>
    have hpos : 0 < bytes.length := List.length_pos_iff.mpr hne
    have hrecv : Event.received (.sys (.recv fd size flags bytes.length bytes)) = some bytes :=
      if_pos (by omega)
    have hsize : (Buffer.ofList bytes).size ≠ 0 := by
      rw [Buffer.size,Buffer.data_ofList hlen]
      omega
    exact ⟨fitsAll_plain hl (by simp) (by simp),Or.inl ⟨bytes,hrecv,rfl,hsize⟩⟩
  | failed => exact ⟨fitsAll_plain hl (by simp) (by simp),Or.inr ⟨rfl,rfl⟩⟩
  | closed =>
    refine ⟨⟨.plain hl (by simp) (by simp),?_⟩,Or.inr ⟨rfl,rfl⟩⟩
    exact fitsAll_plain rfl (by simp) (by simp)
  | guard => exact ⟨trivial,Or.inr ⟨hl,rfl⟩⟩

theorem fits_exit (b : Bool) : Fits (some (.performs b)) .exit ↔ b = false := by
  constructor
  · intro h
    cases h.exit rfl
    rfl
  · intro hb
    subst hb
    exact ⟨fun _ => rfl,fun bytes h _ => (by cases h),fun data h => (by cases h)⟩

/-- What a turn logs fits exactly if it finds no foreign code. -/
theorem Turn.fits {w w' : World} {p q : Point} {new : List Event} {last : Option Event}
    (h : Turn w p new w' q) (hp : Pending last p) :
    (FitsAll last new ↔ ClearAt w.client last p) ∧
      (ClearAt w.client last p → Pending (lastOf last new) q) := by
  cases h with
  | resolve _ => exact ⟨iff_of_true (fitsAll_plain hp (by simp) (by simp)) trivial,fun _ => ⟨_,rfl⟩⟩
  | connect _ => exact ⟨iff_of_true (fitsAll_plain hp (by simp) (by simp)) trivial,fun _ => ⟨_,rfl⟩⟩
  | exit hpoint he =>
    have hb : ∃ b, last = some (.performs b) := by
      obtain rfl | ⟨es,rfl⟩ := hpoint
      · exact hp
      · exact hp
    have hclear : ClearAt w.client last p ↔ (last = some (.performs true) → False) := by
      obtain rfl | ⟨es,rfl⟩ := hpoint
      · simp [ClearAt,he]
      · simp [ClearAt,he]
    obtain ⟨b,rfl⟩ := hb
    rw [fitsAll_single,hclear,fits_exit]
    exact ⟨by cases b <;> simp,fun _ => rfl⟩
  | resolved he =>
    obtain ⟨b,rfl⟩ := hp
    exact ⟨iff_of_true trivial fun _ => he,fun _ => rfl⟩
  | connected he =>
    obtain ⟨b,rfl⟩ := hp
    exact ⟨iff_of_true trivial fun _ => he,fun _ => rfl⟩
  | announce => exact ⟨iff_of_true (fitsAll_plain hp (by simp) (by simp)) trivial,fun _ => rfl⟩
  | iterate _ => exact ⟨iff_of_true (fitsAll_plain hp (by simp) (by simp)) trivial,fun _ => rfl⟩
  | leave _ => exact ⟨iff_of_true trivial trivial,fun _ => hp⟩
  | lost _ => exact ⟨iff_of_true (fitsAll_plain hp (by simp) (by simp)) trivial,fun _ => rfl⟩
  | check _ => exact ⟨iff_of_true trivial trivial,fun _ => hp⟩
  | poll _ hq =>
    refine ⟨iff_of_true (fitsAll_plain hp (by simp) (by simp)) trivial,fun _ => ?_⟩
    obtain rfl | rfl := hq
    · rfl
    · rfl
  | receive _ hr =>
    obtain ⟨hfits,hpending⟩ := hr.fits hp
    exact ⟨iff_of_true hfits trivial,fun _ => hpending⟩
  | fail hf =>
    refine ⟨?_,fun _ => rfl⟩
    obtain ⟨bytes,hb,hdata,hsize⟩ | ⟨hidle,hsize⟩ := hp
    · refine iff_of_false ?_ ?_
      · intro hfits
        cases hfits.1.passed bytes hb rfl
      · intro hclear
        obtain hf | hf := hf
        · rw [hclear hsize] at hf
          cases hf
        · exact hsize hf
    · exact iff_of_true (fitsAll_plain hidle (by simp) (by simp)) fun hd => absurd hsize hd
  | pass he hd =>
    refine ⟨iff_of_true ((fitsAll_single last _).mpr ?_) fun _ => he,fun _ => rfl⟩
    obtain ⟨bytes,hb,hdata,-⟩ | ⟨-,hsize⟩ := hp
    · subst hdata
      refine ⟨fun h => (by cases h),?_,?_⟩
      · intro bytes' hb' _
        cases hb.symm.trans hb'
        rfl
      · intro data hdata
        cases hdata
        exact ⟨bytes,hb,rfl⟩
    · exact absurd hsize hd
  | close _ => exact ⟨iff_of_true trivial trivial,fun _ => hp⟩
  | closed _ => exact ⟨iff_of_true (fitsAll_plain hp (by simp) (by simp)) trivial,fun _ => rfl⟩
  | last => exact ⟨iff_of_true (fitsAll_plain hp (by simp) (by simp)) trivial,fun _ => rfl⟩

theorem fits_silent {new : List Event} {last : Option Event} (h : ∀ e ∈ new, e.isSilent)
    (hl : Idle last) : FitsAll last new ∧ Idle (lastOf last new) := by
  induction new generalizing last with
  | nil => exact ⟨trivial,hl⟩
  | cons e new ih =>
    have he := h e List.mem_cons_self
    have hplain : e ≠ .exit ∧ (∀ data, e ≠ .dataReceive data) ∧ Idle (some e) := by
      cases e with
      | performs b => exact ⟨by simp,by simp,rfl⟩
      | sys call => cases call with
        | recv fd size flags n bytes =>
          refine ⟨by simp,by simp,if_neg ?_⟩
          exact Int.not_lt.mpr he
        | _ => exact he.elim
      | _ => exact he.elim
    have hlater : Idle (later last e) := by
      rw [later]
      split
      · exact hplain.2.2
      · exact hl
    obtain ⟨hfits,hidle⟩ := ih (fun e' he' => h e' (List.mem_cons_of_mem e he')) hlater
    exact ⟨⟨.plain hl hplain.1 hplain.2.1,hfits⟩,hidle⟩

theorem Point.idle_of_waits {p : Point} (hp : p.waits) (last : Option Event) :
    Pending last p ↔ Idle last := by
  cases p <;> first | exact hp.elim | exact Iff.rfl

theorem clearAt_of_waits {p : Point} (hp : p.waits) (c : Client) (last : Option Event) :
    ClearAt c last p := by
  cases p <;> first | exact hp.elim | trivial

structure Ordered (s : State) : Prop where
  fits : ErrorLocal s.world.log
  pending : Pending (lastOf none s.world.log) s.point

theorem Ordered.foreign {s t : State} {new : List Event} (hs : Ordered s)
    (hlog : t.world.log = s.world.log++new) (hp : t.point = s.point)
    (h : ∀ e ∈ new, e.isNetwork = false) : Ordered t := by
  obtain ⟨hfits,hlast⟩ := fitsAll_foreign h (lastOf none s.world.log)
  constructor
  · rw [hlog]
    exact (fitsAll_append _ _ _).mpr ⟨hs.fits,hfits⟩
  · rw [hlog,lastOf_append,hlast,hp]
    exact hs.pending

theorem message_foreign {caller : Thread} {w : World} {msg : Buffer} {calls : List SysCall}
    (h : Sends caller w msg calls) :
    ∀ e ∈ .message msg::calls.map Event.sys, e.isNetwork = false := by
  obtain ⟨-,⟨calls',hcalls,hsend⟩,-⟩ := w.client.conn.send_frame msg w.client.ec 0
    (sysPart caller (w.note (.message msg)))
  obtain rfl : calls = calls' := h.symm.trans hcalls
  intro e he
  cases List.mem_cons.mp he with
  | inl he =>
    subst he
    rfl
  | inr he =>
    obtain ⟨call,hcall,rfl⟩ := List.mem_map.mp he
    have hs := hsend call hcall
    cases call with
    | send fd offered flags n => rfl
    | _ => exact hs.elim

theorem Ordered.step {s t : State} {a : Act} (hs : Ordered s) (h : step s a = some t) :
    (ErrorLocal t.world.log ↔ Clear s a) ∧ (Clear s a → Ordered t) := by
  obtain ⟨-,new,hm⟩ := step_moved h
  have hlog := hm.log
  have hsame : t.point = s.point → (∀ e ∈ new, e.isNetwork = false) → Clear s a →
      (ErrorLocal t.world.log ↔ Clear s a) ∧ (Clear s a → Ordered t) := by
    intro hp hforeign hc
    have ht := hs.foreign hlog hp hforeign
    exact ⟨iff_of_true ht.fits hc,fun _ => ht⟩
  cases hm with
  | connect hp =>
    have hidle := hs.pending
    rw [hp] at hidle
    exact ⟨iff_of_true hs.fits trivial,fun _ => ⟨hs.fits,hidle⟩⟩
  | sent hc _ => exact hsame rfl (message_foreign hc) trivial
  | sending hc _ => exact hsame rfl (message_foreign hc) trivial
  | report _ _ => exact hsame rfl (by simp [Event.isNetwork]) trivial
  | net hturn =>
    obtain ⟨hfits,hpending⟩ := hturn.fits hs.pending
    have hiff : ErrorLocal (s.world.log++new) ↔ Clear s .net :=
      (fitsAll_append _ _ _).trans ((and_iff_right hs.fits).trans hfits)
    rw [hlog]
    refine ⟨hiff,fun hc => ⟨?_,?_⟩⟩
    · rw [hlog]
      exact hiff.mpr hc
    · rw [hlog,lastOf_append]
      exact hpending hc
  | blocked hw _ hnew =>
    have hidle := (Point.idle_of_waits hw _).mp hs.pending
    obtain ⟨hfits,hlast⟩ := fits_silent hnew hidle
    have hlocal : ErrorLocal (s.world.log++new) := (fitsAll_append _ _ _).mpr ⟨hs.fits,hfits⟩
    have hclear : Clear s .net := clearAt_of_waits hw _ _
    rw [hlog]
    refine ⟨iff_of_true hlocal hclear,fun _ => ⟨by rw [hlog]; exact hlocal,?_⟩⟩
    rw [hlog,lastOf_append]
    exact (Point.idle_of_waits hw _).mpr hlast
  | _ => exact hsame rfl (by simp) trivial

/-- Errors stay local in every state of a run exactly if the network thread never finds a
foreign code in `ec_`. -/
theorem errorLocal_iff_clear (running : Bool) (kernel : Kernel) (answers : List Answer)
    {as : List Act} {t : State} (h : run step (initial running kernel answers) as = some t) :
    Always step (fun s => ErrorLocal s.world.log) (initial running kernel answers) as ↔
      Meets step Clear (initial running kernel answers) as := by
  have h0 : Ordered (initial running kernel answers) := ⟨trivial,rfl⟩
  have hside : Meets step (fun _ _ => True) (initial running kernel answers) as :=
    meets_of_forall (fun _ _ => trivial) _ as
  refine always_iff_meets (fun s hs => hs.fits) ?_ ?_ h0 hside h
  · intro s a t hs _ ht hP
    exact (hs.step ht).1.mp hP
  · intro s a t hs _ ht hc
    exact (hs.step ht).2 hc

instance (c : Client) (last : Option Event) : (p : Point) → Decidable (ClearAt c last p)
  | .resolved _ | .connected =>
    inferInstanceAs (Decidable (last = some (.performs true) → c.ec.isSet = false))
  | .received data => inferInstanceAs (Decidable (data.size ≠ 0 → c.ec.isSet = false))
  | .absent | .resolving | .connecting _ | .announcing | .head | .checking | .polling
  | .receiving | .closing | .leaving | .ended | .exited => isTrue trivial

instance (s : State) : (a : Act) → Decidable (Clear s a)
  | .net => inferInstanceAs
    (Decidable (ClearAt s.world.client (lastOf none s.world.log) s.point))
  | .connect _ _ | .disconnect | .send _ _ | .check | .destroy => isTrue trivial

/-- A byte is received and passed on. -/
theorem errorLocal_received : ∃ t,
    run step (initial true ⟨[],0,[]⟩ (connects++[.poll (.ok [POLLOUT]),.recv (.ok [7])]))
      (opening++List.replicate 5 .net) = some t ∧
    ErrorLocal t.world.log ∧ .dataReceive (.ofList [7]) ∈ t.world.log := by
  obtain ⟨t,ht,hmem⟩ : ∃ t,
      run step (initial true ⟨[],0,[]⟩ (connects++[.poll (.ok [POLLOUT]),.recv (.ok [7])]))
        (opening++List.replicate 5 .net) = some t ∧
      .dataReceive (.ofList [7]) ∈ t.world.log := ⟨_,rfl,by decide⟩
  have hall := (errorLocal_iff_clear true ⟨[],0,[]⟩ _ ht).mpr (by decide)
  exact ⟨t,ht,hall.last ht,hmem⟩

/-- A message is sent before the client is connected; the address is found, and the process
exits. -/
theorem exits_on_send : ¬∀ running kernel answers as t,
    run step (initial running kernel answers) as = some t →
      Always step (fun s => ErrorLocal s.world.log) (initial running kernel answers) as := by
  intro h
  obtain ⟨t,ht,hlog⟩ : ∃ t, run step (initial true ⟨[],0,[]⟩ connects)
      [.connect "localhost" "5000",.send .user (.ofList [1]),.net,.net] = some t ∧
      t.world.log = [.message (.ofList [1]),.performs true,.exit] := ⟨_,rfl,rfl⟩
  have hlast := (h _ _ _ _ t ht).last ht
  rw [hlog] at hlast
  have hexit := hlast.2.2.1.exit rfl
  cases hexit

end Client
end Yonaa
