import Yonaa.ClientRuns
import Yonaa.Sends

/-! What a client sends: the messages in call order, each with the bytes the kernel took of
it. -/
namespace Yonaa

section Unbroken
variable {α : Type}

def IsCut (p : List α × List α) : Prop := p.2 ≠ [] ∧ p.2 ≠ p.1

instance [DecidableEq α] (p : List α × List α) : Decidable (IsCut p) :=
  inferInstanceAs (Decidable (p.2 ≠ [] ∧ p.2 ≠ p.1))

/-- Messages with the part taken of each: whole messages, or nothing of them, up to one that
was cut to a prefix; nothing is taken after it. -/
inductive Unbroken : List (List α × List α) → Prop where
  | nil : Unbroken []
  | whole {msg part : List α} {rest : List (List α × List α)} (h : part = [] ∨ part = msg)
      (hrest : Unbroken rest) : Unbroken ((msg, part)::rest)
  | cut {msg part : List α} {rest : List (List α × List α)} (h : part <+: msg)
      (hrest : ∀ p ∈ rest, p.2 = []) : Unbroken ((msg, part)::rest)

theorem Unbroken.untouched {ps : List (List α × List α)} (h : ∀ p ∈ ps, p.2 = []) : Unbroken ps := by
  induction ps with
  | nil => exact .nil
  | cons p ps ih =>
    exact .whole (Or.inl (h p List.mem_cons_self))
      (ih fun q hq => h q (List.mem_cons_of_mem p hq))

/-- What was taken is the concatenation of whole messages in order, but for a prefix of the
last one; the empty message stands at the end of the list for the case of no such prefix. -/
theorem Unbroken.concat {ps : List (List α × List α)} (h : Unbroken ps) :
    ∃ whole last part, part <+: last ∧ (whole++[last]).Sublist (ps.map (·.1)++[[]]) ∧
      (ps.map (·.2)).flatten = whole.flatten++part := by
  induction h with
  | nil => exact ⟨[],[],[],List.prefix_refl _,List.Sublist.refl _,rfl⟩
  | @whole msg part rest h hrest ih =>
    obtain ⟨whole,last,part',hp,hsub,hflat⟩ := ih
    obtain rfl | rfl := h
    · exact ⟨whole,last,part',hp,hsub.trans (List.sublist_cons_self msg _),by simpa using hflat⟩
    · exact ⟨part::whole,last,part',hp,hsub.cons_cons part,by simp [hflat]⟩
  | @cut msg part rest h hrest =>
    have hnone : (rest.map (·.2)).flatten = [] := by
      rw [List.flatten_eq_nil_iff]
      intro taken htaken
      obtain ⟨p,hp,rfl⟩ := List.mem_map.mp htaken
      exact hrest p hp
    exact ⟨[],msg,part,h,by simp,by simp [hnone]⟩

theorem unbroken_snoc (ps : List (List α × List α)) (msg part : List α) :
    Unbroken (ps++[(msg, part)]) ↔
      Unbroken ps ∧ part <+: msg ∧ ((∃ p ∈ ps, IsCut p) → part = []) := by
  induction ps with
  | nil =>
    constructor
    · intro h
      cases h with
      | whole h _ =>
        obtain rfl | rfl := h
        · exact ⟨.nil,List.nil_prefix,fun _ => rfl⟩
        · exact ⟨.nil,List.prefix_refl _,by simp⟩
      | cut h _ => exact ⟨.nil,h,by simp⟩
    · intro h
      exact .cut h.2.1 (by simp)
  | cons p ps ih =>
    obtain ⟨m,taken⟩ := p
    constructor
    · intro h
      cases h with
      | whole h hrest =>
        obtain ⟨hps,hpart,hcut⟩ := ih.mp hrest
        refine ⟨.whole h hps,hpart,?_⟩
        intro hex
        obtain ⟨q,hq,hqcut⟩ := hex
        cases List.mem_cons.mp hq with
        | inl hq =>
          subst hq
          obtain h | h := h
          · exact absurd h hqcut.1
          · exact absurd h hqcut.2
        | inr hq => exact hcut ⟨q,hq,hqcut⟩
      | cut h hrest =>
        have hpart : part = [] := hrest (msg, part) (by simp)
        subst hpart
        exact ⟨.cut h fun q hq => hrest q (List.mem_append_left _ hq),List.nil_prefix,
          fun _ => rfl⟩
    · intro h
      obtain ⟨hps,hpart,hcut⟩ := h
      have hlater : (∃ p ∈ ps, IsCut p) → part = [] := by
        intro hex
        obtain ⟨q,hq,hqcut⟩ := hex
        exact hcut ⟨q,List.mem_cons_of_mem _ hq,hqcut⟩
      cases hps with
      | whole h hrest => exact .whole h (ih.mpr ⟨hrest,hpart,hlater⟩)
      | cut h hrest =>
        by_cases hc : IsCut (m, taken)
        · refine .cut h ?_
          intro q hq
          cases List.mem_append.mp hq with
          | inl hq => exact hrest q hq
          | inr hq =>
            rw [List.mem_singleton.mp hq]
            exact hcut ⟨(m, taken),List.mem_cons_self,hc⟩
        · refine .whole ?_ (ih.mpr ⟨.untouched hrest,hpart,hlater⟩)
          by_cases hnil : taken = []
          · exact Or.inl hnil
          · exact Or.inr (by_contra fun hne => hc ⟨hnil,hne⟩)

end Unbroken

namespace Connection
open Sys

/-- The next answer of the kernel to ::send accepts some of this many bytes. -/
def takesOf (size : Nat) : List Answer → Bool
  | .send (.ok n)::_ => decide (1 ≤ n ∧ n ≤ size ∧ n ≤ maxTransfer)
  | _ => false

/-- The connection is open, and the kernel accepts bytes of the data. -/
def takes (c : Connection) (data : Buffer) (answers : List Answer) : Bool :=
  c.isConnected && takesOf data.size answers

theorem SentFrom.taken {fd : Int} {data : Buffer} {flags n : Nat} {ec : ErrorCode}
    {s : SysState} {r : Except Halt ErrorCode × SysState} (h : SentFrom fd data flags ec n s r) :
    ∃ calls m, r.2.calls = s.calls++calls ∧
      data.data.take n++calls.flatMap SysCall.taken = data.data.take m := by
  cases h with
  | sent h hfds hcalls hans => exact ⟨_,_,hcalls,h.taken⟩
  | @failed calls m s' e h hm hfds hcalls hans =>
    refine ⟨calls++[.send fd (data.data.drop m) flags (-1)],m,?_,?_⟩
    · rw [hcalls,List.append_assoc]
    · simpa [SysCall.taken] using h.taken
  | cut h hm hfds hcalls hans => exact ⟨_,_,hcalls,h.taken⟩

theorem send_takesOf (fd : Int) (offered : List Byte) (flags : Nat) (s : SysState) :
    (takesOf offered.length s.answers = true ∧ ∃ k : Nat, ∃ s',
      (Sys.send fd offered flags).run s = (.ok (k : Int), s') ∧ 1 ≤ k ∧ k ≤ offered.length ∧
        k ≤ maxTransfer ∧ s'.calls = s.calls++[.send fd offered flags k]) ∨
    (takesOf offered.length s.answers = false ∧ ∃ r s',
      (Sys.send fd offered flags).run s = (r, s') ∧
        (r = .ok (-1) ∧ s'.calls = s.calls++[.send fd offered flags (-1)] ∨
          r = .error .cut ∧ s'.calls = s.calls)) := by
  obtain ⟨kernel,answers,calls⟩ := s
  cases answers with
  | nil => exact Or.inr ⟨rfl,_,_,rfl,Or.inr ⟨rfl,rfl⟩⟩
  | cons a rest => cases a with
    | send r => cases r with
      | error e => exact Or.inr ⟨rfl,_,_,rfl,Or.inl ⟨rfl,rfl⟩⟩
      | ok k =>
        by_cases hk : 1 ≤ k ∧ k ≤ offered.length ∧ k ≤ maxTransfer
        · exact Or.inl ⟨decide_eq_true hk,k,_,send_answered fd flags offered rfl hk,
            hk.1,hk.2.1,hk.2.2,rfl⟩
        · exact Or.inr ⟨decide_eq_false hk,_,_,send_refused fd flags offered rfl hk,
            Or.inr ⟨rfl,rfl⟩⟩
    | _ => exact Or.inr ⟨rfl,_,_,rfl,Or.inr ⟨rfl,rfl⟩⟩

/-- The loop takes a prefix of the data; it takes something exactly if the first call does. -/
theorem sendLoop_taken (fd : Int) (data : Buffer) (flags : Nat) (ec : ErrorCode) (fuel : Nat)
    (hf : data.size = fuel+1) (s : SysState) : ∃ calls,
      ((sendLoop fd data flags ec (fuel+1) 0).run s).2.calls = s.calls++calls ∧
      calls.flatMap SysCall.taken <+: data.data ∧
      (calls.flatMap SysCall.taken ≠ [] ↔ takesOf data.size s.answers = true) := by
  have hpos : 0 < data.size := by omega
  have hsize : data.size < 2^64 := data.size_lt
  simp only [sendLoop,if_pos hpos,List.drop_zero]
  obtain ⟨ht,k,s',hr,hk,hkl,hmax,hcalls⟩ | ⟨ht,r,s',hr,h⟩ :=
    send_takesOf fd data.data flags s
  · have hkl : k ≤ data.size := hkl
    have hne : ¬(k : Int) = -1 := by omega
    rw [Prog.bind_ok hr,toInt_of_le hmax,if_neg hne,addSize_eq (by omega),Nat.zero_add]
    obtain ⟨calls,m,hrest,htaken⟩ :=
      (sendLoop_cases fd data flags ec fuel k hkl (by omega) s').taken
    refine ⟨.send fd data.data flags k::calls,by rw [hrest,hcalls]; simp,?_⟩
    have hall : (SysCall.send fd data.data flags k::calls).flatMap SysCall.taken =
        data.data.take m := by
      rw [← htaken,List.flatMap_cons]
      rfl
    have hsome : data.data.take k ≠ [] := by
      intro hnil
      have hlen := congrArg List.length hnil
      have : data.size = data.data.length := rfl
      simp only [List.length_take,List.length_nil] at hlen
      omega
    rw [hall]
    refine ⟨List.take_prefix m _,iff_of_true ?_ ht⟩
    rw [← htaken]
    simp [hsome]
  · have ht : takesOf data.size s.answers = false := ht
    obtain ⟨rfl,hcalls⟩ | ⟨rfl,hcalls⟩ := h
    · rw [Prog.bind_ok hr,if_pos toInt_neg_one,Prog.bind_ok (errno_apply s')]
      exact ⟨_,hcalls,by simp [SysCall.taken],by simp [SysCall.taken,ht]⟩
    · rw [Prog.bind_error hr]
      exact ⟨[],by simp [hcalls],by simp,by simp [ht]⟩

theorem send_taken (c : Connection) (data : Buffer) (ec : ErrorCode) (s : SysState) :
    ∃ calls, ((c.send data ec).run s).2.calls = s.calls++calls ∧
      calls.flatMap SysCall.taken <+: data.data ∧
      (calls.flatMap SysCall.taken ≠ [] ↔ c.takes data s.answers = true) := by
  have hno : ∀ answers, takesOf 0 answers = false := by
    intro answers
    unfold takesOf
    split
    · exact decide_eq_false (by omega)
    · rfl
  cases hc : c.isConnected with
  | false =>
    rw [send_guard ec 0 (Or.inl hc)]
    exact ⟨[],by simp,by simp,by simp [takes,hc]⟩
  | true => cases hd : data.size with
    | zero =>
      rw [send_guard ec 0 (Or.inr hd)]
      exact ⟨[],by simp,by simp,by simp [takes,hd,hno]⟩
    | succ fuel =>
      have hg : (!c.isConnected || data.size == 0) = false := by simp [hc,hd]
      have hrun := sendLoop_taken c.socket data
        (((if 0 &&& SendFlags.dontRoute ≠ 0 then MSG_DONTROUTE else 0) |||
          (if 0 &&& SendFlags.endOfRecord ≠ 0 then MSG_EOR else 0)) ||| MSG_NOSIGNAL) ec fuel hd s
      rw [← hd] at hrun
      simp only [send,hg,Bool.false_eq_true,if_false]
      simpa only [takes,hc,Bool.true_and] using hrun

end Connection
namespace Client
open Machine

def takenNext : List Event → List Byte
  | [] => []
  | .message _::_ => []
  | .sys call::log => call.taken++takenNext log
  | _::log => takenNext log

def parts : List Event → List (List Byte × List Byte)
  | [] => []
  | .message msg::log => (msg.data, takenNext log)::parts log
  | _::log => parts log

def Event.isIdle : Event → Prop
  | .message _ => False
  | .sys call => call.taken = []
  | _ => True

theorem takenNext_idle {new : List Event} (h : ∀ e ∈ new, e.isIdle) : takenNext new = [] := by
  induction new with
  | nil => rfl
  | cons e new ih =>
    have he := h e List.mem_cons_self
    have hrest := ih fun e' he' => h e' (List.mem_cons_of_mem e he')
    cases e with
    | message msg => exact he.elim
    | sys call =>
      rw [takenNext,hrest,List.append_nil]
      exact he
    | _ => exact hrest

theorem takenNext_append (log : List Event) {new : List Event} (h : takenNext new = []) :
    takenNext (log++new) = takenNext log := by
  induction log with
  | nil => exact h
  | cons e log ih => cases e with
    | message msg => rfl
    | sys call => rw [List.cons_append,takenNext,ih,takenNext]
    | _ => exact ih

theorem parts_append (log : List Event) {new : List Event} (h : takenNext new = []) :
    parts (log++new) = parts log++parts new := by
  induction log with
  | nil => rfl
  | cons e log ih => cases e with
    | message msg => rw [List.cons_append,parts,parts,ih,takenNext_append log h]; rfl
    | _ => exact ih

theorem parts_idle {new : List Event} (h : ∀ e ∈ new, e.isIdle) : parts new = [] := by
  induction new with
  | nil => rfl
  | cons e new ih =>
    have he := h e List.mem_cons_self
    have hrest := ih fun e' he' => h e' (List.mem_cons_of_mem e he')
    cases e with
    | message msg => exact he.elim
    | _ => exact hrest

theorem parts_message (msg : Buffer) (calls : List SysCall) :
    parts (.message msg::calls.map .sys) = [(msg.data, calls.flatMap SysCall.taken)] := by
  have hnone : parts (calls.map .sys) = [] := by
    induction calls with
    | nil => rfl
    | cons call calls ih => exact ih
  have htaken : takenNext (calls.map .sys) = calls.flatMap SysCall.taken := by
    induction calls with
    | nil => rfl
    | cons call calls ih => rw [List.map_cons,takenNext,ih hnone,List.flatMap_cons]
  rw [parts,htaken,hnone]

theorem Turn.idle {w w' : World} {p q : Point} {new : List Event} (h : Turn w p new w' q) :
    ∀ e ∈ new, e.isIdle := by
  cases h with
  | receive _ hr => cases hr <;> simp [Event.isIdle,SysCall.taken]
  | _ => simp [Event.isIdle,SysCall.taken]

theorem silent_idle {e : Event} (h : e.isSilent) : e.isIdle := by
  cases e with
  | sys call => cases call <;> simp_all [Event.isSilent,Event.isIdle,SysCall.taken]
  | message msg => exact h.elim
  | _ => trivial

/-- What an act adds to the messages: nothing, or a message with a prefix taken of it. -/
inductive Adds (s : State) (a : Act) (ps : List (List Byte × List Byte)) : Prop where
  | nothing (ha : ∀ caller msg, a ≠ .send caller msg) (h : ps = parts s.world.log)
  | message (caller : Thread) (msg : Buffer) (part : List Byte) (ha : a = .send caller msg)
      (hpart : part <+: msg.data)
      (htakes : part ≠ [] ↔ s.world.client.conn.takes msg s.world.answers = true)
      (h : ps = parts s.world.log++[(msg.data, part)])

theorem Adds.idle {s t : State} {a : Act} {new : List Event}
    (ha : ∀ caller msg, a ≠ .send caller msg) (hlog : t.world.log = s.world.log++new)
    (h : ∀ e ∈ new, e.isIdle) :
    Adds s a (parts t.world.log) := by
  refine .nothing ha ?_
  rw [hlog,parts_append _ (takenNext_idle h),parts_idle h,List.append_nil]

theorem Adds.sends {s t : State} {caller : Thread} {msg : Buffer} {calls : List SysCall}
    (hs : Sends caller s.world msg calls)
    (hlog : t.world.log = s.world.log++.message msg::calls.map .sys) :
    Adds s (.send caller msg) (parts t.world.log) := by
  obtain ⟨calls',hcalls,hpart,htakes⟩ := s.world.client.conn.send_taken msg s.world.client.ec
    (sysPart caller (s.world.note (.message msg)))
  obtain rfl : calls = calls' := hs.symm.trans hcalls
  refine .message caller msg (calls.flatMap SysCall.taken) rfl hpart htakes ?_
  rw [hlog,parts_append _ rfl,parts_message]

theorem Moved.adds {s t : State} {a : Act} {new : List Event} (h : Moved s a new t) :
    Adds s a (parts t.world.log) := by
  have hlog := h.log
  cases h with
  | sent hs _ => exact .sends hs hlog
  | sending hs _ => exact .sends hs hlog
  | report _ _ => exact .idle (fun _ _ ha => by cases ha) hlog (by simp [Event.isIdle])
  | net h => exact .idle (fun _ _ ha => by cases ha) hlog h.idle
  | blocked _ _ hnew =>
    exact .idle (fun _ _ ha => by cases ha) hlog fun e he => silent_idle (hnew e he)
  | _ => exact .idle (fun _ _ ha => by cases ha) hlog (by simp)

/-- After a message was cut, the kernel takes nothing of the next one: the connection is
closed, the message empty, or its first ::send fails. -/
def Refused (s : State) : Act → Prop
  | .send _ msg => (∃ p ∈ parts s.world.log, IsCut p) →
      s.world.client.conn.takes msg s.world.answers = false
  | _ => True

instance (s : State) : (a : Act) → Decidable (Refused s a)
  | .send _ msg => inferInstanceAs (Decidable ((∃ p ∈ parts s.world.log, IsCut p) →
      s.world.client.conn.takes msg s.world.answers = false))
  | .connect _ _ | .disconnect | .check | .destroy | .net => isTrue trivial

theorem unbroken_step {s t : State} {a : Act} (hs : Unbroken (parts s.world.log))
    (h : step s a = some t) : Unbroken (parts t.world.log) ↔ Refused s a := by
  obtain ⟨-,new,hm⟩ := step_moved h
  cases hm.adds with
  | nothing ha hps =>
    rw [hps]
    refine iff_of_true hs ?_
    cases a with
    | send caller msg => exact absurd rfl (ha caller msg)
    | _ => trivial
  | message caller msg part ha hpart htakes hps =>
    subst ha
    rw [hps,unbroken_snoc]
    constructor
    · intro h hcut
      have hnil := h.2.2 hcut
      by_contra htake
      exact htakes.mpr (by simpa using htake) hnil
    · intro href
      refine ⟨hs,hpart,?_⟩
      intro hcut
      by_contra hne
      rw [href hcut] at htakes
      exact absurd (htakes.mp hne) (by decide)

/-- The stream of a client stays unbroken in every state of a run exactly if the kernel takes
nothing of the messages that come after a cut one. -/
theorem unbroken_iff_refused (running : Bool) (kernel : Kernel) (answers : List Answer)
    {as : List Act} {t : State} (h : run step (initial running kernel answers) as = some t) :
    Always step (fun s => Unbroken (parts s.world.log)) (initial running kernel answers) as ↔
      Meets step Refused (initial running kernel answers) as := by
  have h0 : Unbroken (parts (initial running kernel answers).world.log) := .nil
  have hside : Meets step (fun _ _ => True) (initial running kernel answers) as :=
    meets_of_forall (fun _ _ => trivial) _ as
  refine always_iff_meets (I := fun s => Unbroken (parts s.world.log)) (fun _ hs => hs) ?_ ?_
    h0 hside h
  · intro s a t hs _ ht hP
    exact (unbroken_step hs ht).mp hP
  · intro s a t hs _ ht hok
    exact (unbroken_step hs ht).mpr hok

/-- A message is cut after its first byte, and nothing is taken of the next one. -/
theorem unbroken_refused : ∃ t,
    run step (initial true ⟨[],0,[]⟩
      (connects++[.send (.ok 1),.send (.error ⟨32,by decide⟩),.send (.error ⟨32,by decide⟩)]))
      (opening++[.send .user (.ofList [1,2]),.send .user (.ofList [3])]) = some t ∧
    Unbroken (parts t.world.log) := by
  obtain ⟨t,ht⟩ : ∃ t, run step (initial true ⟨[],0,[]⟩
      (connects++[.send (.ok 1),.send (.error ⟨32,by decide⟩),.send (.error ⟨32,by decide⟩)]))
      (opening++[.send .user (.ofList [1,2]),.send .user (.ofList [3])]) = some t := ⟨_,rfl⟩
  have hall := (unbroken_iff_refused true ⟨[],0,[]⟩ _ ht).mpr (by decide)
  exact ⟨t,ht,hall.last ht⟩

/-- The second ::send of a message finds no buffer space; the next message goes out. -/
theorem cut_then_sent : ¬∀ running kernel answers as t,
    run step (initial running kernel answers) as = some t →
      Always step (fun s => Unbroken (parts s.world.log)) (initial running kernel answers) as := by
  intro h
  obtain ⟨t,ht,hparts⟩ : ∃ t, run step (initial true ⟨[],0,[]⟩
      (connects++[.send (.ok 1),.send (.error ⟨105,by decide⟩),.send (.ok 1)]))
      (opening++[.send .user (.ofList [1,2]),.send .user (.ofList [3])]) = some t ∧
      parts t.world.log = [([1,2], [1]),([3], [3])] := ⟨_,rfl,rfl⟩
  have hlast := (h _ _ _ _ t ht).last ht
  rw [hparts] at hlast
  cases hlast with
  | whole h _ => simp at h
  | cut _ hrest => simpa using hrest ([3], [3]) (by simp)

end Client
end Yonaa
