import Yonaa.Deeds
import Yonaa.Inbound
import Yonaa.Outbound
import Yonaa.Streams

/-! A client and the server at the two ends of a connection: what the handlers at one end are
given, against what was sent at the other. -/
namespace Yonaa
open Machine

/-- What a stream socket promises: each end receives a prefix of the bytes that the kernel
took at the other. -/
structure Wire (log : List Observation) (id : ClientId) (fd : Int) (events : List Client.Event) :
    Prop where
  down : (Client.obtained events).flatten <+: (stream fd log).bytes
  up : brought id log <+: ((Client.parts events).map (·.2)).flatten

theorem Stream.Framed.starts {s : Stream} (h : s.Framed) : s.bytes <+: s.messages.flatten := by
  cases h with
  | whole ms b => exact List.prefix_refl _
  | cut ms b hp hne =>
    rw [List.flatten_append,List.flatten_singleton]
    exact (List.prefix_append_right_inj _).mpr hp

theorem Client.Adds.starts {s : Client.State} {a : Client.Act} {ps : List (List Byte × List Byte)}
    (h : Client.Adds s a ps) (hs : ∀ p ∈ Client.parts s.world.log, p.2 <+: p.1) :
    ∀ p ∈ ps, p.2 <+: p.1 := by
  cases h with
  | nothing ha h =>
    rw [h]
    exact hs
  | message caller msg part ha hpart htakes h =>
    rw [h]
    exact List.forall_mem_append.mpr ⟨hs,List.forall_mem_singleton.mpr hpart⟩

theorem Client.parts_taken {running : Bool} {kernel : Kernel} {answers : List Answer}
    {as : List Client.Act} {t : Client.State}
    (h : run Client.step (Client.initial running kernel answers) as = some t) :
    ∀ p ∈ Client.parts t.world.log, p.2 <+: p.1 := by
  refine run_invariant (I := fun s => ∀ p ∈ Client.parts s.world.log, p.2 <+: p.1) ?_
    (fun p hp => absurd hp List.not_mem_nil) h
  intro s a t hs hstep
  obtain ⟨-,new,hm⟩ := Client.step_moved hstep
  exact hm.adds.starts hs

/-- Over a connection between a client and the server `on_data_receive_` of the client is given
a prefix of the messages for it, and the handler of the server a prefix of what the client's
messages were taken of: of the messages in order, the last one perhaps cut short, if nothing
was taken of a message after one that was cut. -/
theorem end_to_end (env : Environment) (fuel : Nat) (hfew : Few (env.log fuel)) (running : Bool)
    (kernel : Kernel) (answers : List Answer) {as : List Client.Act} {t : Client.State}
    (hrun : run Client.step (Client.initial running kernel answers) as = some t)
    {id : ClientId} {fd : Int} (hwire : Wire (env.log fuel) id fd t.world.log) :
    (Client.given t.world.log).flatten <+: (stream fd (env.log fuel)).messages.flatten ∧
    (passedOn id (env.log fuel) <+: ((Client.parts t.world.log).map (·.2)).flatten ∧
      ∀ p ∈ Client.parts t.world.log, p.2 <+: p.1) ∧
    (Meets Client.step Client.Refused (Client.initial running kernel answers) as →
      ∃ whole last part, part <+: last ∧
        (whole++[last]).Sublist ((Client.parts t.world.log).map (·.1)++[[]]) ∧
        passedOn id (env.log fuel) <+: whole.flatten++part) := by
  obtain ⟨p,hp,-⟩ := env.reachable fuel
  have hpassed : passedOn id (env.log fuel) <+: brought id (env.log fuel) :=
    (hp.inflow hfew id).starts
  have hgiven := (Client.intake_run hrun).starts
  have hup := hpassed.trans hwire.up
  refine ⟨?_,⟨hup,Client.parts_taken hrun⟩,fun hmeets => ?_⟩
  · have hframed : (stream fd (env.log fuel)).Framed :=
      (hp.served.streamed fd).framed _ (List.prefix_refl _)
    exact (hgiven.flatten.trans hwire.down).trans hframed.starts
  · have h0 : Unbroken (Client.parts (Client.initial running kernel answers).world.log) := .nil
    have hunbroken : Unbroken (Client.parts t.world.log) :=
      hmeets.invariant (I := fun s => Unbroken (Client.parts s.world.log))
        (fun s a t hs hok hstep => (Client.unbroken_step hs hstep).mpr hok) h0 hrun
    obtain ⟨whole,last,part,hpart,hsub,hflat⟩ := hunbroken.concat
    exact ⟨whole,last,part,hpart,hsub,hflat ▸ hup⟩

/-- The first client of the broadcast sends three bytes and gets them back. -/
theorem end_to_end_broadcast : ∃ t, run Client.step (Client.initial true ⟨[],0,[]⟩
      (Client.connects++[.send (.ok 3),.poll (.ok [POLLOUT]),.recv (.ok [7,8,9])]))
      (Client.opening++.send .user (.ofList [7,8,9])::.check::List.replicate 5 .net) = some t ∧
    Client.given t.world.log = [[7,8,9]] ∧ passedOn 1 (Environment.broadcast.log 5) = [7,8,9] ∧
    (Client.given t.world.log).flatten <+:
      (stream 4 (Environment.broadcast.log 5)).messages.flatten ∧
    ∃ whole last part, part <+: last ∧
      (whole++[last]).Sublist ((Client.parts t.world.log).map (·.1)++[[]]) ∧
      passedOn 1 (Environment.broadcast.log 5) <+: whole.flatten++part := by
  obtain ⟨t,ht,hgiven,hdown,hup⟩ : ∃ t, run Client.step (Client.initial true ⟨[],0,[]⟩
      (Client.connects++[.send (.ok 3),.poll (.ok [POLLOUT]),.recv (.ok [7,8,9])]))
      (Client.opening++.send .user (.ofList [7,8,9])::.check::List.replicate 5 .net) = some t ∧
      Client.given t.world.log = [[7,8,9]] ∧ Client.obtained t.world.log = [[7,8,9]] ∧
      Client.parts t.world.log = [([7,8,9],[7,8,9])] := ⟨_,rfl,rfl,rfl,rfl⟩
  have hwire : Wire (Environment.broadcast.log 5) 1 4 t.world.log := by
    constructor
    · rw [hdown]
      decide +kernel
    · rw [hup]
      decide +kernel
  obtain ⟨hgot,-,hsent⟩ := end_to_end Environment.broadcast 5 (by decide +kernel) true ⟨[],0,[]⟩
    _ ht hwire
  exact ⟨t,ht,hgiven,by decide +kernel,hgot,hsent (by decide)⟩

end Yonaa
