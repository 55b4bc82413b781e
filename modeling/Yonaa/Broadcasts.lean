import Yonaa.Messages

/-! A message to all clients: what each client is offered, and what becomes of the list. -/
namespace Yonaa

section Since
variable {w w' w'' : World}

theorem World.sendsSince_trans (h : w.log <+: w'.log) (h' : w'.log <+: w''.log) :
    w.sendsSince w'' = w.sendsSince w'++w'.sendsSince w'' := by
  obtain ⟨new,hnew⟩ := h
  obtain ⟨new',hnew'⟩ := h'
  rw [sendsSince_eq new hnew.symm,sendsSince_eq new' hnew'.symm,
    sendsSince_eq (new++new') (by rw [← hnew',← hnew,List.append_assoc]),observed_append]

end Since

/-- The clients a message to all goes to; the id 0 excludes nobody. -/
def recipients (exclude : ClientId) (cs : List ClientInfo) : List ClientInfo :=
  cs.filter fun c => c.isConnected && c.id != exclude

theorem recipients_cons_of_pos {exclude : ClientId} {c : ClientInfo} (cs : List ClientInfo)
    (hc : c.isConnected = true) (hid : c.id ≠ exclude) :
    recipients exclude (c::cs) = c::recipients exclude cs :=
  List.filter_cons_of_pos (by simp [hc,hid])

theorem recipients_cons_of_neg {exclude : ClientId} {c : ClientInfo} (cs : List ClientInfo)
    (h : c.isConnected = false ∨ c.id = exclude) :
    recipients exclude (c::cs) = recipients exclude cs := by
  refine List.filter_cons_of_neg ?_
  cases h with
  | inl h => simp [h]
  | inr h => simp [h]

namespace Server
open Net SendResult Connection

/-- Calls that offer data to the clients in list order, to each once, when ::send returns the
results rs in the calls for it. -/
inductive Deliveries (data : Buffer) :
    List ClientInfo → List (List SendResult) → List SysCall → Prop where
  | nil : Deliveries data [] [] []
  | cons {c : ClientInfo} {cs : List ClientInfo} {rs : List SendResult}
      {rss : List (List SendResult)} {flags : Nat} {block calls : List SysCall}
      (once : SendsOnce c.conn.socket data flags rs block)
      (whole : block.flatMap SysCall.taken = data.data ∨ ∃ e : Errno, .error e ∈ rs)
      (rest : Deliveries data cs rss calls) : Deliveries data (c::cs) (rs::rss) (block++calls)

theorem find_distinct {cs : List (Option ClientInfo)} {i : Nat} {c : ClientInfo}
    (hnull : none ∉ cs) (hids : ((entries cs).map (·.id)).Nodup) (hi : cs[i]? = some (some c)) :
    find (fun d => d.id == c.id) cs = .found i c := by
  obtain ⟨j,d,hf,-⟩ := find_of_mem hi (p := fun d => d.id == c.id) (by simp)
    (fun j _ hj => hnull (List.mem_of_getElem? hj))
  have hj := find_found hf
  have hji : j = i := by
    by_contra hne
    exact pairwise_at (fun _ _ h => h.symm) hj.1 hi hne (List.pairwise_map.mp hids)
      (by simpa using hj.2)
  subst hji
  cases hj.1.symm.trans hi
  exact hf

/-- One client gets the message. It is marked if `ec_` is set afterwards. -/
theorem messageClient_delivers {msg : Buffer} {w : World} {i : Nat} {c : ClientInfo}
    {rs : List SendResult} {rest : List Answer} (hnull : none ∉ w.server.clients)
    (hids : ((entries w.server.clients).map (·.id)).Nodup)
    (hi : w.server.clients[i]? = some (some c)) (hc : c.isConnected = true)
    (ho : c.conn.isConnected = true) (hmsg : msg.size ≠ 0) (hrs : Complete msg.size rs)
    (ha : w.answers = rs.map .send++rest) :
    ∃ w' flags, (messageClient msg c.id).run w = (.ok (), w') ∧ w'.answers = rest ∧
      w.log <+: w'.log ∧ w.sendsSince w' = SendResult.calls c.conn.socket msg flags 0 rs ∧
      (w'.server.clients = w.server.clients ∨
        w'.server.clients = w.server.clients.set i (some { c with isConnected := false })) := by
  have hf := find_distinct hnull hids hi
  obtain ⟨flags,s,hs,hans,hcalls,-⟩ := send_complete w.server.ec 0 ho hmsg hrs
    (s := sysPart (w.note (.message c.id msg))) ha
  have h := messageClient_cases msg c.id w
  have hsends := h.sends hf hc
  obtain ⟨new,hlog,-⟩ := h.recorded
  rw [hs] at hsends
  generalize (messageClient msg c.id).run w = r at h hsends hlog
  have hgrows : w.log <+: r.2.log := by
    rw [hlog]
    exact List.prefix_append _ _
  cases h with
  | passed h => rw [h i c hf] at hc; cases hc
  | crash h => rw [hf] at h; cases h
  | sent hf' _ hs' _ =>
    cases hf.symm.trans hf'
    cases hs.symm.trans hs'
    exact ⟨_,flags,rfl,hans,hgrows,hsends.trans hcalls,Or.inl rfl⟩
  | failed hf' _ hs' _ =>
    cases hf.symm.trans hf'
    cases hs.symm.trans hs'
    exact ⟨_,flags,rfl,hans,hgrows,hsends.trans hcalls,Or.inr rfl⟩
  | cut hf' _ hs' =>
    cases hf.symm.trans hf'
    cases hs.symm.trans hs'

theorem messageClient_passes {msg : Buffer} {w : World} {i : Nat} {c : ClientInfo}
    (hnull : none ∉ w.server.clients) (hids : ((entries w.server.clients).map (·.id)).Nodup)
    (hi : w.server.clients[i]? = some (some c)) (hc : c.isConnected = false) :
    ∃ w', (messageClient msg c.id).run w = (.ok (), w') ∧ w'.answers = w.answers ∧
      w.log <+: w'.log ∧ w.sendsSince w' = [] ∧ w'.server.clients = w.server.clients := by
  have hf := find_distinct hnull hids hi
  have h := messageClient_cases msg c.id w
  obtain ⟨new,hlog,-⟩ := h.recorded
  have hpasses := h.passes (fun j d hd => by cases hf.symm.trans hd; exact hc)
  generalize (messageClient msg c.id).run w = r at h hpasses hlog
  have hgrows : w.log <+: r.2.log := by
    rw [hlog]
    exact List.prefix_append _ _
  have hnot : ∀ {j d}, find (fun d => d.id == c.id) w.server.clients = .found j d →
      d.isConnected = true → False := by
    intro j d hd hdc
    cases hf.symm.trans hd
    rw [hc] at hdc
    cases hdc
  cases h with
  | passed h => exact ⟨_,rfl,rfl,hgrows,hpasses⟩
  | crash h => rw [hf] at h; cases h
  | sent hd hdc => exact (hnot hd hdc).elim
  | failed hd hdc => exact (hnot hd hdc).elim
  | cut hd hdc => exact (hnot hd hdc).elim

def lasting (c : ClientInfo) : ClientId × Connection × Int := (c.id,c.conn,c.fd)

/-- The loop is at position i: the clients l are ahead, and ::send will return the results
rss to it. -/
structure Ahead (msg : Buffer) (exclude : ClientId) (rest : List Answer) (l : List ClientInfo)
    (rss : List (List SendResult)) (i : Nat) (w : World) : Prop where
  drop : w.server.clients.drop i = l.map some
  noNull : none ∉ w.server.clients
  ids : ((entries w.server.clients).map (·.id)).Nodup
  opens : ∀ c ∈ l, c.isConnected = true → c.conn.isConnected = true
  length : rss.length = (recipients exclude l).length
  complete : ∀ rs ∈ rss, Complete msg.size rs
  answers : w.answers = rss.flatMap (·.map .send)++rest

section Ahead
variable {msg : Buffer} {exclude : ClientId} {rest : List Answer} {c : ClientInfo}
  {l : List ClientInfo} {rss : List (List SendResult)} {i : Nat} {w w1 : World}

theorem Ahead.entry (h : Ahead msg exclude rest (c::l) rss i w) :
    w.server.clients[i]? = some (some c) := (drop_entry h.drop).1

theorem Ahead.tail (h : Ahead msg exclude rest (c::l) rss i w) :
    w.server.clients.drop (i+1) = l.map some := (drop_entry h.drop).2

theorem Ahead.skip (h : Ahead msg exclude rest (c::l) rss i w)
    (hc : c.isConnected = false ∨ c.id = exclude) (hans : w1.answers = w.answers)
    (hcs : w1.server.clients = w.server.clients) : Ahead msg exclude rest l rss (i+1) w1 := by
  have hlen := h.length
  rw [recipients_cons_of_neg l hc] at hlen
  exact ⟨by rw [hcs]; exact h.tail,by rw [hcs]; exact h.noNull,by rw [hcs]; exact h.ids,
    fun d hd => h.opens d (List.mem_cons_of_mem c hd),hlen,h.complete,hans.trans h.answers⟩

theorem Ahead.next {rs : List SendResult} (h : Ahead msg exclude rest (c::l) (rs::rss) i w)
    (hc : c.isConnected = true) (hid : c.id ≠ exclude)
    (hans : w1.answers = rss.flatMap (·.map .send)++rest)
    (hcs : w1.server.clients = w.server.clients ∨
      w1.server.clients = w.server.clients.set i (some { c with isConnected := false })) :
    Ahead msg exclude rest l rss (i+1) w1 ∧
      keys lasting w1.server.clients = keys lasting w.server.clients := by
  have hlen := h.length
  rw [recipients_cons_of_pos l hc hid,List.length_cons,List.length_cons] at hlen
  have hopens : ∀ d ∈ l, d.isConnected = true → d.conn.isConnected = true :=
    fun d hd => h.opens d (List.mem_cons_of_mem c hd)
  have hcomplete : ∀ rs' ∈ rss, Complete msg.size rs' :=
    fun rs' hrs' => h.complete rs' (List.mem_cons_of_mem rs hrs')
  obtain hcs | hcs := hcs
  · exact ⟨⟨by rw [hcs]; exact h.tail,by rw [hcs]; exact h.noNull,by rw [hcs]; exact h.ids,
      hopens,by omega,hcomplete,hans⟩,by rw [hcs]⟩
  · have hkeys : keys lasting w1.server.clients = keys lasting w.server.clients := by
      rw [hcs]
      exact keys_set h.entry rfl
    have hids : (entries w1.server.clients).map (·.id) = (entries w.server.clients).map (·.id) := by
      rw [hcs]
      exact map_entries_set h.entry rfl
    have hnull : none ∉ w1.server.clients := by
      intro hmem
      have hnone : none ∈ keys lasting w.server.clients := hkeys ▸ none_mem_keys.mpr hmem
      exact h.noNull (none_mem_keys.mp hnone)
    have hdrop : w1.server.clients.drop (i+1) = l.map some := by
      rw [hcs,List.drop_set_of_lt (Nat.lt_succ_self i)]
      exact h.tail
    exact ⟨⟨hdrop,hnull,by rw [hids]; exact h.ids,hopens,by omega,hcomplete,hans⟩,hkeys⟩

theorem messageFrom_step (hmsg : msg.size ≠ 0) (h : Ahead msg exclude rest (c::l) rss i w) :
    ∃ rss' w1, (messageFrom msg exclude (l.length+1) i).run w =
        (messageFrom msg exclude l.length (i+1)).run w1 ∧
      Ahead msg exclude rest l rss' (i+1) w1 ∧ w.log <+: w1.log ∧
      keys lasting w1.server.clients = keys lasting w.server.clients ∧
      ∀ calls, Deliveries msg (recipients exclude l) rss' calls →
        Deliveries msg (recipients exclude (c::l)) rss (w.sendsSince w1++calls) := by
  rw [messageFrom,Prog.bind_ok (deref_entry h.entry)]
  by_cases hid : c.id = exclude
  · rw [if_neg (by simpa using hid)]
    refine ⟨rss,w,rfl,h.skip (Or.inr hid) rfl rfl,List.prefix_refl _,rfl,?_⟩
    intro calls hcalls
    rw [World.sendsSince_eq [] (List.append_nil _).symm,recipients_cons_of_neg l (Or.inr hid)]
    exact hcalls
  · rw [if_pos hid]
    by_cases hc : c.isConnected = true
    · have hlen := h.length
      rw [recipients_cons_of_pos l hc hid] at hlen ⊢
      obtain ⟨rs,rss,rfl⟩ := List.exists_of_length_succ rss hlen
      have hrs := h.complete rs List.mem_cons_self
      have ha := h.answers
      rw [List.flatMap_cons,List.append_assoc] at ha
      obtain ⟨w1,flags,hr,hans,hlog,hsends,hcs⟩ := messageClient_delivers h.noNull h.ids h.entry
        hc (h.opens c List.mem_cons_self hc) hmsg hrs ha
      obtain ⟨hahead,hkeys⟩ := h.next hc hid hans hcs
      refine ⟨rss,w1,Prog.bind_ok hr,hahead,hlog,hkeys,?_⟩
      intro later hcalls
      have honce : SendsOnce c.conn.socket msg flags rs
          (SendResult.calls c.conn.socket msg flags 0 rs) := complete_sendsOnce hrs
      rw [hsends]
      refine .cons honce ?_ hcalls
      obtain htotal | herr := hrs.total_eq
      · left
        rw [honce.taken,htotal]
        exact List.take_length
      · exact Or.inr herr
    · have hc' : c.isConnected = false := by simpa using hc
      obtain ⟨w1,hr,hans,hlog,hsends,hcs⟩ :=
        messageClient_passes h.noNull h.ids h.entry hc'
      refine ⟨rss,w1,Prog.bind_ok hr,h.skip (Or.inl hc') hans hcs,hlog,by rw [hcs],?_⟩
      intro calls hcalls
      rw [hsends,recipients_cons_of_neg l (Or.inl hc')]
      exact hcalls

theorem messageFrom_delivers (hmsg : msg.size ≠ 0) (h : Ahead msg exclude rest l rss i w) :
    ∃ w', (messageFrom msg exclude l.length i).run w = (.ok (), w') ∧ w'.answers = rest ∧
      w.log <+: w'.log ∧ Deliveries msg (recipients exclude l) rss (w.sendsSince w') ∧
      keys lasting w'.server.clients = keys lasting w.server.clients := by
  induction l generalizing i w rss with
  | nil =>
    obtain rfl := List.length_eq_zero_iff.mp h.length
    refine ⟨w,rfl,h.answers,List.prefix_refl _,?_,rfl⟩
    rw [World.sendsSince_eq [] (List.append_nil _).symm]
    exact .nil
  | cons c l ih =>
    obtain ⟨rss',w1,hr,hahead,hlog,hkeys,hdel⟩ := messageFrom_step hmsg h
    obtain ⟨w',hr',hans,hlog',hdel',hkeys'⟩ := ih hahead
    refine ⟨w',hr.trans hr',hans,hlog.trans hlog',?_,hkeys'.trans hkeys⟩
    rw [World.sendsSince_trans hlog hlog']
    exact hdel _ hdel'

end Ahead

/-- A message to all clients is offered to every recipient once, in list order, whatever ::send
returned for the others. -/
theorem messageAllClients_delivers {msg : Buffer} (exclude : ClientId)
    {rss : List (List SendResult)} {rest : List Answer} {w : World}
    (hnull : none ∉ w.server.clients) (hids : ((entries w.server.clients).map (·.id)).Nodup)
    (hzero : ∀ c ∈ entries w.server.clients, c.id ≠ 0)
    (hopen : ∀ c ∈ entries w.server.clients, c.isConnected = true → c.conn.isConnected = true)
    (hmsg : msg.size ≠ 0)
    (hlen : rss.length = (recipients exclude (entries w.server.clients)).length)
    (hrss : ∀ rs ∈ rss, Complete msg.size rs)
    (ha : w.answers = rss.flatMap (·.map .send)++rest) :
    ∃ w', (messageAllClients msg exclude).run w = (.ok (), w') ∧ w'.answers = rest ∧
      Deliveries msg (recipients exclude (entries w.server.clients)) rss (w.sendsSince w') ∧
      (exclude = 0 → recipients exclude (entries w.server.clients) =
        (entries w.server.clients).filter (·.isConnected)) ∧
      keys lasting w'.server.clients = keys lasting w.server.clients := by
  have hcs : w.server.clients = (entries w.server.clients).map some :=
    (map_some_reduceOption hnull).symm
  have hlength : w.server.clients.length = (entries w.server.clients).length :=
    (congrArg List.length hcs).trans (List.length_map some)
  obtain ⟨w',hr,hans,-,hdel,hkeys⟩ := messageFrom_delivers (i := 0) hmsg
    ⟨hcs,hnull,hids,hopen,hlen,hrss,ha⟩
  refine ⟨w',?_,hans,hdel,?_,hkeys⟩
  · unfold messageAllClients
    rw [run_server_bind,hlength]
    exact hr
  · intro hexclude
    refine List.filter_congr ?_
    intro c hc
    simp [hexclude,hzero c hc]

/-- The connection of the first of three clients breaks, the second is not connected. -/
theorem messageAllClients_broken : ∃ w',
    (messageAllClients (.ofList [7,8]) 0).run (.holding [⟨1,{ socket := 4 },4,true⟩,
      ⟨2,{ socket := 5 },5,false⟩,⟨3,{ socket := 6 },6,true⟩]
      [.send (.ok 1),.send (.error ⟨32,by decide⟩),.send (.ok 2)]) = (.ok (), w') ∧
    w'.answers = [] := by
  have hfirst : Complete (Buffer.ofList [7,8]).size [.ok 1,.error ⟨32,by decide⟩] :=
    .part (by decide) (.failed _ (by decide))
  have hlast : Complete (Buffer.ofList [7,8]).size [.ok 2] := .part (by decide) .all
  have hrss : ∀ rs ∈ [[.ok 1,.error ⟨32,by decide⟩],[.ok 2]],
      Complete (Buffer.ofList [7,8]).size rs :=
    List.forall_mem_cons.mpr ⟨hfirst,List.forall_mem_singleton.mpr hlast⟩
  obtain ⟨w',hr,hans,-⟩ := messageAllClients_delivers 0 (w := .holding [⟨1,{ socket := 4 },4,true⟩,
      ⟨2,{ socket := 5 },5,false⟩,⟨3,{ socket := 6 },6,true⟩]
      [.send (.ok 1),.send (.error ⟨32,by decide⟩),.send (.ok 2)])
    (by decide) (by decide) (by decide) (by decide) (by decide) (by decide) hrss
    (List.append_nil _).symm
  exact ⟨w',hr,hans⟩

end Server
end Yonaa
