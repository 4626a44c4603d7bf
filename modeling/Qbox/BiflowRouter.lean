import Qbox.BiflowSocket

/-! `biflow_router_socket`: any number of biflow sockets, each passing what it receives to all the others or to one of
them. A `biflow_socket_multi` is a router whose first socket, towards its own main socket, is the one sent to. -/
namespace Qbox
open List Option BiflowSocket

structure BiflowIncoming (T : Type) where
  command : TlmCommand
  address : U64
  data : List T

/-- `remote`: the socket of a port, the port it sends to, the items routed to it, the transactions sent. -/
structure RouterPort (T : Type) where
  socket : BiflowSocket T
  sendto : Option ℕ
  routed : List T
  log : List (BiflowDelivery T)

/-- The router: `p_sendto`, the port found for it, and the ports. `undefined`: past `INT_MAX`, or a null pointer. -/
structure BiflowRouter (T : Type) where
  sendtoName : String
  sendto : Option ℕ
  ports : List (RouterPort T)
  undefined : Bool

inductive RouterEvent (T : Type) where
  | incoming (i : ℕ) (txn : BiflowIncoming T)
  | control (j : ℕ) (c : BiflowCtrl)
  | sendall (j : ℕ)

namespace RouterPort
variable {T : Type} (p : RouterPort T)

def fresh : RouterPort T := ⟨.constructed,none,[],[]⟩

def accept (txn : BiflowIncoming T) : RouterPort T where
  socket := txn.data.foldl BiflowSocket.enqueue
    (p.socket.setDefaultTxn ⟨txn.command,txn.address,BitVec.ofNat 32 txn.data.length⟩)
  sendto := p.sendto
  routed := p.routed++txn.data
  log := p.log

def control (c : BiflowCtrl) : RouterPort T := {p with socket := p.socket.initiatorCtrl c}

def sendall : RouterPort T := match p.socket.sendall with
  | (none,_) => p
  | (some d,socket) => {p with socket := socket, log := p.log++[d]}

/-- What was routed to the port is delivered or queued, and each transaction announced what left with it. -/
structure Delivers (p : RouterPort T) : Prop where
  data : p.log.flatMap BiflowDelivery.items++p.socket.queue = p.routed
  announced : ∀ d ∈ p.log, d.txn.dataLength.toNat = d.removed

def Fits (p : RouterPort T) : Prop := p.socket.sending ≠ 0 → ∀ t ∈ p.socket.txn, t.dataLength.toNat = p.socket.sending

variable {p}

lemma Delivers.control (h : Delivers p) (c : BiflowCtrl) : Delivers (p.control c) := by
  refine ⟨?_,h.announced⟩
  cases c <;> exact h.data

lemma Delivers.accept (h : Delivers p) (txn : BiflowIncoming T) : Delivers (p.accept txn) := by
  refine ⟨?_,h.announced⟩
  rw [RouterPort.accept,BiflowSocket.foldl_enqueue,← h.data]
  simp [setDefaultTxn]

lemma Delivers.sendall_iff (h : Delivers p) (htx : p.socket.queue ≠ [] → p.socket.txn ≠ none) :
    Delivers p.sendall ↔ p.Fits := by
  have hle := sending_le_length (s := p.socket)
  rcases Nat.eq_zero_or_pos p.socket.sending with h0 | hp
  · rw [RouterPort.sendall,BiflowSocket.sendall_zero h0]
    simp [h,Fits,h0]
  · obtain ⟨t,ht⟩ := ne_none_iff_exists'.mp (htx (ne_nil_of_length_pos (hp.trans_le hle)))
    rw [RouterPort.sendall,BiflowSocket.sendall_pos hp,sendingTxn,ht]
    constructor
    · intro hd _ u hu
      rw [ht,mem_some] at hu
      rw [← hu]
      exact hd.announced _ (mem_append_right _ (mem_singleton_self _))
    · intro hf
      have hl := hf hp.ne' t ht
      refine ⟨?_,fun d hd => ?_⟩
      · simp only [flatMap_append,flatMap_singleton,BiflowDelivery.items,getD_some,hl]
        rw [List.append_assoc,take_append_drop,h.data]
      · rcases mem_append.mp hd with hd | hd
        · exact h.announced d hd
        · rw [mem_singleton.mp hd]
          exact hl

def Templated (p : RouterPort T) : Prop := p.socket.queue ≠ [] → p.socket.txn ≠ none

lemma templated_accept (txn : BiflowIncoming T) : Templated (p.accept txn) := by
  intro _
  rw [RouterPort.accept,BiflowSocket.foldl_enqueue]
  nofun

lemma Templated.control (h : Templated p) (c : BiflowCtrl) : Templated (p.control c) := by
  cases c <;> exact h

lemma Templated.sendall (h : Templated p) : Templated p.sendall := by
  rcases Nat.eq_zero_or_pos p.socket.sending with h0 | hp
  · rw [RouterPort.sendall,BiflowSocket.sendall_zero h0]
    exact h
  · rw [RouterPort.sendall,BiflowSocket.sendall_pos hp]
    exact fun hne => h fun hn => hne (by simp [hn])

lemma sendall_sendto : p.sendall.sendto = p.sendto := by
  rw [RouterPort.sendall]
  split <;> rfl

end RouterPort

namespace BiflowRouter
variable {T : Type} (r : BiflowRouter T)

def sendsTo (sendto : Option ℕ) (i j : ℕ) : Bool := j ≠ i && (sendto = none || sendto = some j)

/-- `route_data` of port `i`. Without another port to send to, the message about it follows `m_sendto`. -/
def routeData (i : ℕ) (txn : BiflowIncoming T) : BiflowRouter T := match r.ports[i]? with
  | none => r
  | some source =>
    let sent := (List.range r.ports.length).any (sendsTo source.sendto i)
    {r with
      ports := r.ports.mapIdx fun j p => if sendsTo source.sendto i j then p.accept txn else p
      undefined := r.undefined || 2^31 ≤ txn.data.length || (!sent && source.sendto = none)}

def modifyPort (j : ℕ) (f : RouterPort T → RouterPort T) : BiflowRouter T :=
  {r with ports := r.ports.mapIdx fun i p => if i = j then f p else p}

def step : RouterEvent T → BiflowRouter T
  | .incoming i txn => r.routeData i txn
  | .control j c => r.modifyPort j (·.control c)
  | .sendall j => r.modifyPort j RouterPort.sendall

/-- `sendto_setup` for the port `k` just bound to the socket of that name. -/
def sendtoSetup (other : String) (k : ℕ) : BiflowRouter T := if r.sendtoName = "" then r
  else
    match r.sendto with
    | some m => r.modifyPort k fun p => {p with sendto := some m}
    | none =>
      if r.sendtoName.toList <+: other.toList then
        {r with sendto := some k, ports := r.ports.mapIdx fun i p => if i ≠ k then {p with sendto := some k} else p}
      else r

/-- `bind`, and `new_bind` with `bind_done`: one more port. -/
def bind (other : String) : BiflowRouter T :=
  {r with ports := r.ports++[RouterPort.fresh]}.sendtoSetup other r.ports.length

def bindAll (sendtoName : String) (others : List String) : BiflowRouter T :=
  others.foldl bind ⟨sendtoName,none,[],false⟩

structure Delivers (r : BiflowRouter T) : Prop where
  defined : r.undefined = false
  ports : ∀ p ∈ r.ports, p.Delivers

/-- Transactions find two ports and fit an `int`; a port sends as much as the last one routed to it. -/
def Fits : RouterEvent T → Prop
  | .incoming i txn => i < r.ports.length → txn.data.length < 2^31 ∧ 2 ≤ r.ports.length
  | .control _ _ => True
  | .sendall j => ∀ p ∈ r.ports[j]?, p.Fits

variable {r}

variable {g : ℕ → RouterPort T → RouterPort T} {j i : ℕ} {f : RouterPort T → RouterPort T}

lemma forall_mem_mapIdx {P : RouterPort T → Prop} :
    (∀ p ∈ r.ports.mapIdx g, P p) ↔ ∀ i p, r.ports[i]? = some p → P (g i p) := by
  simp only [mem_mapIdx,forall_exists_index]
  constructor
  · intro h i p hp
    obtain ⟨hi,rfl⟩ := List.getElem?_eq_some_iff.mp hp
    exact h _ i hi rfl
  · rintro h _ i hi rfl
    exact h i _ (List.getElem?_eq_getElem hi)

/-- Every port has the transaction of what it has queued, and sends to a port that exists. -/
structure Wired (r : BiflowRouter T) : Prop where
  templated : ∀ (i : ℕ) (p : RouterPort T), r.ports[i]? = some p → p.Templated
  sendto : ∀ (i : ℕ) (p : RouterPort T), r.ports[i]? = some p → ∀ k ∈ p.sendto, k < r.ports.length ∧ k ≠ i

lemma Wired.mapIdx (h : Wired r) {u : Bool}
    (ht : ∀ i p, RouterPort.Templated p → (g i p).Templated) (hs : ∀ i p, (g i p).sendto = p.sendto) :
    Wired {r with ports := r.ports.mapIdx g, undefined := u} := by
  refine ⟨fun i p hp => ?_,fun i p hp k hk => ?_⟩
  · rw [getElem?_mapIdx,map_eq_some_iff] at hp
    obtain ⟨q,hq,rfl⟩ := hp
    exact ht i q (h.templated i q hq)
  · rw [getElem?_mapIdx,map_eq_some_iff] at hp
    obtain ⟨q,hq,rfl⟩ := hp
    rw [hs] at hk
    rw [length_mapIdx]
    exact h.sendto i q hq k hk

lemma Wired.modifyPort (h : Wired r)
    (ht : ∀ p, RouterPort.Templated p → (f p).Templated) (hs : ∀ p, (f p).sendto = p.sendto) :
    Wired (r.modifyPort j f) := by
  refine h.mapIdx (fun i p hp => ?_) fun i p => ?_
  · split
    · exact ht p hp
    · exact hp
  · split
    · exact hs p
    · rfl

lemma Wired.step (h : Wired r) (e : RouterEvent T) : Wired (r.step e) := by
  cases e with
  | incoming i txn =>
    rw [BiflowRouter.step,routeData]
    split
    · exact h
    · refine h.mapIdx (fun j p hp => ?_) fun j p => ?_
      · split
        · exact RouterPort.templated_accept txn
        · exact hp
      · split <;> rfl
  | control j c => exact h.modifyPort (fun _ hp => hp.control c) fun _ => rfl
  | sendall j => exact h.modifyPort (fun _ hp => hp.sendall) fun _ => RouterPort.sendall_sendto

lemma Wired.sent_iff (h : Wired r) {source : RouterPort T} (hi : r.ports[i]? = some source) :
    ((List.range r.ports.length).any (sendsTo source.sendto i) = true ∨ source.sendto ≠ none) ↔ 2 ≤ r.ports.length := by
  have hlt := (List.getElem?_eq_some_iff.mp hi).1
  cases hs : source.sendto with
  | some k =>
    have hk := h.sendto i source hi k hs
    simp only [ne_eq,reduceCtorEq,not_false_eq_true,or_true,true_iff]
    omega
  | none =>
    simp only [List.any_eq_true,mem_range,sendsTo,ne_eq,not_true_eq_false,or_false,decide_true,Bool.true_or,
      Bool.and_true,decide_eq_true_eq]
    constructor
    · rintro ⟨j,hj,hji⟩
      omega
    · intro h2
      by_cases h0 : i = 0
      · exact ⟨1,by omega,by omega⟩
      · exact ⟨0,by omega,by omega⟩

lemma Delivers.modifyPort_iff (h : Delivers r) :
    Delivers (r.modifyPort j f) ↔ ∀ p ∈ r.ports[j]?, (f p).Delivers := by
  have hpo : (∀ p ∈ (r.modifyPort j f).ports, p.Delivers) ↔ ∀ p ∈ r.ports[j]?, (f p).Delivers := by
    rw [modifyPort,forall_mem_mapIdx]
    constructor
    · intro ha p hp
      simpa using ha j p hp
    · intro hj i p hp
      split
      · rename_i hij
        exact hj p (hij ▸ hp)
      · exact h.ports p (mem_of_getElem? hp)
  exact ⟨fun hd => hpo.mp hd.ports,fun hd => ⟨h.defined,hpo.mpr hd⟩⟩

lemma Delivers.routeData_iff (h : Delivers r) (hw : Wired r) (i : ℕ) (txn : BiflowIncoming T) :
    Delivers (r.routeData i txn) ↔ r.Fits (.incoming i txn) := by
  rw [routeData,Fits]
  cases hi : r.ports[i]? with
  | none => simp [h,List.getElem?_eq_none_iff.mp hi]
  | some source =>
    have hlt := (List.getElem?_eq_some_iff.mp hi).1
    have hs := hw.sent_iff hi
    have hpo : ∀ p ∈ r.ports.mapIdx fun j p => if sendsTo source.sendto i j then p.accept txn else p, p.Delivers := by
      rw [forall_mem_mapIdx]
      intro j p hp
      have hp' := h.ports p (mem_of_getElem? hp)
      split
      · exact hp'.accept txn
      · exact hp'
    refine Iff.trans ⟨fun hd => hd.defined,fun hd => ⟨hd,hpo⟩⟩ ?_
    rw [← hs]
    simp only [h.defined,Bool.false_or,Bool.or_eq_false_iff,decide_eq_false_iff_not,not_le,Bool.and_eq_false_iff,
      Bool.not_eq_false',ne_eq,hlt,forall_const]

lemma Delivers.step_iff (h : Delivers r) (hw : Wired r) (e : RouterEvent T) : Delivers (r.step e) ↔ r.Fits e := by
  cases e with
  | incoming i txn => exact h.routeData_iff hw i txn
  | control j c =>
    refine h.modifyPort_iff.trans (iff_of_true (fun p hp => ?_) trivial)
    exact (h.ports p (mem_of_getElem? hp)).control c
  | sendall j =>
    refine h.modifyPort_iff.trans (forall₂_congr fun p hp => ?_)
    exact (h.ports p (mem_of_getElem? hp)).sendall_iff (hw.templated j p hp)

/-- Before `sendto_setup` finds the port none sends to one only; then the others send to it, and it to all. -/
structure Bound (r : BiflowRouter T) : Prop where
  fresh : ∀ p ∈ r.ports, p.socket = .constructed ∧ p.routed = [] ∧ p.log = []
  defined : r.undefined = false
  unnamed : r.sendtoName = "" → r.sendto = none
  found : ∀ k ∈ r.sendto, k < r.ports.length
  sendto : ∀ (i : ℕ) (p : RouterPort T), r.ports[i]? = some p → p.sendto = if r.sendto = some i then none else r.sendto

lemma getElem?_bound {l : List (RouterPort T)} {p : RouterPort T} (h : (l++[RouterPort.fresh])[i]? = some p) :
    l[i]? = some p ∨ i = l.length ∧ p = .fresh := by
  rcases Nat.lt_trichotomy i l.length with hlt | heq | hgt
  · rw [getElem?_append_left hlt] at h
    exact .inl h
  · rw [heq,getElem?_concat_length,some_inj] at h
    exact .inr ⟨heq,h.symm⟩
  · simp [getElem?_append_right hgt.le,show i-l.length ≠ 0 by omega] at h

lemma Bound.mapIdx (h : Bound r) {k : Option ℕ}
    (hg : ∀ i p, (g i p).socket = p.socket ∧ (g i p).routed = p.routed ∧ (g i p).log = p.log)
    (hn : r.sendtoName = "" → k = none) (hk : ∀ m ∈ k, m ≤ r.ports.length)
    (hse : ∀ i p, (r.ports++[RouterPort.fresh])[i]? = some p → (g i p).sendto = if k = some i then none else k) :
    Bound {r with ports := (r.ports++[RouterPort.fresh]).mapIdx g, sendto := k} := by
  refine ⟨fun q hq => ?_,h.defined,hn,fun m hm => ?_,fun i q hq => ?_⟩
  · obtain ⟨i,hi,rfl⟩ := mem_mapIdx.mp hq
    obtain ⟨hs,hr,hl⟩ := hg i (r.ports++[RouterPort.fresh])[i]
    rw [hs,hr,hl]
    rcases mem_append.mp (getElem_mem hi) with hp | hp
    · exact h.fresh _ hp
    · rw [mem_singleton.mp hp]
      exact ⟨rfl,rfl,rfl⟩
  · simpa [Nat.lt_succ_iff] using hk m hm
  · rw [getElem?_mapIdx,map_eq_some_iff] at hq
    obtain ⟨p,hp,rfl⟩ := hq
    exact hse i p hp

lemma Bound.bind (h : Bound r) (other : String) : Bound (r.bind other) := by
  have hk : (r.ports++[RouterPort.fresh]).mapIdx (fun _ p => p) = r.ports++[RouterPort.fresh] :=
    ext_getElem? fun i => by rw [getElem?_mapIdx,Option.map_id']
  -- A port that leaves where the others send to as it is: nothing has been found yet.
  have hno (hs : r.sendto = none) : Bound {r with ports := r.ports++[RouterPort.fresh]} := by
    have hb := h.mapIdx (fun _ _ => ⟨rfl,rfl,rfl⟩) (fun _ => rfl) nofun
      fun i p hp => ?_
    · rwa [hk,← hs] at hb
    · rcases getElem?_bound hp with hp | ⟨_,rfl⟩
      · simpa [hs] using h.sendto i p hp
      · rfl
  rw [BiflowRouter.bind,sendtoSetup]
  split
  · rename_i hn
    exact hno (h.unnamed hn)
  · rename_i hn
    cases hs : r.sendto with
    | none =>
      dsimp only
      split
      · refine h.mapIdx (fun i p => ?_) (fun heq => absurd heq hn) (by simp) fun i p hp => ?_
        · split <;> exact ⟨rfl,rfl,rfl⟩
        · rcases getElem?_bound hp with hp | ⟨rfl,rfl⟩
          · have hlt := (List.getElem?_eq_some_iff.mp hp).1
            simp [hlt.ne,hlt.ne']
          · simp [RouterPort.fresh]
      · rw [← hs]
        exact hno hs
    | some m =>
      have hm := h.found m hs
      refine h.mapIdx (fun i p => ?_) (fun heq => absurd heq hn) (by simpa using hm.le) fun i p hp => ?_
      · split <;> exact ⟨rfl,rfl,rfl⟩
      · rcases getElem?_bound hp with hp | ⟨rfl,rfl⟩
        · have hlt := (List.getElem?_eq_some_iff.mp hp).1
          simpa [hlt.ne,hs] using h.sendto i p hp
        · simp [hm.ne]

lemma Bound.bindAll (sendtoName : String) (others : List String) : Bound (bindAll (T := T) sendtoName others) :=
  foldlRecOn others BiflowRouter.bind ⟨nofun,rfl,fun _ => rfl,nofun,nofun⟩ fun _ h other _ => h.bind other

lemma Bound.wired (h : Bound r) : Wired r := by
  refine ⟨fun i p hp hne => ?_,fun i p hp k hk => ?_⟩
  · rw [(h.fresh p (mem_of_getElem? hp)).1] at hne
    exact absurd rfl hne
  · rw [h.sendto i p hp] at hk
    split at hk
    · simp at hk
    · rename_i hne
      exact ⟨h.found k hk,fun heq => hne (heq ▸ hk)⟩

lemma Bound.delivers (h : Bound r) : Delivers r := by
  refine ⟨h.defined,fun p hp => ?_⟩
  obtain ⟨hs,hr,hl⟩ := h.fresh p hp
  exact ⟨by rw [hs,hr,hl]; rfl,by simp [hl]⟩

/-- In every run each port delivers what is routed to it, in transactions that announce what they carry, exactly when
each sends only as much as the last transaction routed to it, which fits an `int` and has a port to go to. -/
theorem router_delivers_iff (sendtoName : String) (others : List String) (l : List (RouterEvent T)) :
    (∀ l', l' <+: l → Delivers (l'.foldl step (bindAll sendtoName others))) ↔
      GuardedRun.Along step Fits (bindAll sendtoName others) l :=
  GuardedRun.forall_prefix_iff_along (fun _ e hw _ _ => hw.step e) (fun _ e hw h => h.step_iff hw e)
    (Bound.bindAll sendtoName others).wired (Bound.bindAll sendtoName others).delivers l

def mergedRun : List (RouterEvent U8) :=
  [.incoming 0 ⟨.ignore,0,[1]⟩,.incoming 0 ⟨.ignore,0,[2]⟩,.control 1 canReceiveAny,.sendall 1]

/-- They leave the queue in one transaction that announces one item. -/
theorem router_merges_transactions :
    ((mergedRun.foldl step (bindAll "" ["uart","backend"])).ports.map RouterPort.log) =
      [[],[⟨⟨.ignore,0,1⟩,2,[1,2],2⟩]] ∧
    ((mergedRun.foldl step (bindAll "" ["uart","backend"])).ports.map (·.socket.queue)) = [[],[]] := by
  decide

end BiflowRouter
end Qbox
