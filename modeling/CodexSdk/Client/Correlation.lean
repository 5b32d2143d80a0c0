import CodexSdk.Client.Rules
import Mathlib.Data.List.Nodup

/-!
# Requests and their responses

Registering a request, sending it, completing it with a response, giving up on it and failing it
with all the others are separate steps of separate tasks on one map.  This file proves that a
caller is never handed somebody else's answer.

The history of a run tells which task was given which id (`allocations`) and which reply channel
(`openings`), which request was registered under them (`registrations`), and which channels were
completed (`completions`).  `Correlated` is the invariant that ties the shared state to this
history, and `Permitted` is what a task has to know before it performs an operation that matters:
its own id and channel are unused when it registers them, and only the inbound loop completes
anything.  Everything else a task does keeps the invariant unconditionally.
-/

set_option autoImplicit false

namespace CodexSdk

open Json Interleave

/-! ## What the history tells -/

/-- A request as it was registered. -/
structure Registration where
  tid : Tid
  id : RequestId
  tx : Nat

/-- Its entry in the map. -/
abbrev Registration.entry (r : Registration) : RequestId × Nat := (r.id, r.tx)

/-- The task an id was given to. -/
def allocation : ClientEvent → Option (Tid × Int64)
  | .op t .nextIdFetchAdd n => some (t, n)
  | _ => none

/-- The task a reply channel was made for. -/
def opening : ClientEvent → Option (Tid × Nat)
  | .op t .oneshotChannel rx => some (t, rx)
  | _ => none

def registration : ClientEvent → Option Registration
  | .op t (.pendingInsert id tx) _ => some ⟨t, id, tx⟩
  | _ => none

/-- The channel an event completes. -/
def completion : ClientEvent → Option Nat
  | .op _ (.pendingDispatch _ _) (some tx) => some tx
  | .op _ (.oneshotSend tx _) _ => some tx
  | _ => none

/-- The channels an event takes out of the map, all at once. -/
def taking : ClientEvent → List Nat
  | .op _ .pendingTake entries => entries.map Prod.snd
  | _ => []

section

variable (tr : List ClientEvent)

def allocations : List (Tid × Int64) := tr.filterMap allocation

def openings : List (Tid × Nat) := tr.filterMap opening

def registrations : List Registration := tr.filterMap registration

def completions : List Nat := tr.filterMap completion

def takings : List Nat := tr.flatMap taking

/-- The last frame the inbound loop has read, right after `past`, is the response `reply` to `id`,
and the loop has not done anything since. -/
def ReadFrom (past : List ClientEvent) (id : RequestId) (reply : Reply) : Prop :=
  ∃ between frame, tr = between ++ .op .inboundLoop .inboundRecv (some (.ok frame)) :: past ∧
    (∀ e ∈ between, e.tid ≠ .inboundLoop) ∧ classifyIncoming frame = .ok (.response id reply)

/-- The response frame read right after `past` completed the request that `t` had registered as
`id`, with exactly that reply. -/
def AnsweredBy (past : List ClientEvent) (t : Tid) (id : RequestId) (tx : Nat) (reply : Reply) :
    Prop :=
  ∃ newer older, tr = newer ++ .op .inboundLoop (.pendingDispatch id reply) (some tx) :: older ∧
    ReadFrom older past id reply ∧ ⟨t, id, tx⟩ ∈ registrations older

/-- How a channel can have been completed. -/
def Completed (tx : Nat) (reply : Reply) : Prop :=
  (∃ past t id, AnsweredBy tr past t id tx reply) ∨
    tx ∈ takings tr ∧ ∃ message, reply = .error (transportFailure message)

/-- So few ids have been given out that none was given out twice. -/
def FewIds : Prop := (allocations tr).length ≤ 2 ^ 63

end

/-- The steps under which ids do not repeat: fewer than `2 ^ 63` have been given out. -/
def idsLast (w : ClientWorld) : ClientEvent → Prop
  | .op _ .nextIdFetchAdd _ => (allocations w.trace).length < 2 ^ 63
  | _ => True

/-! ## The invariant -/

/-- The shared state and the history agree. -/
structure Correlated (s : Inner) (tr : List ClientEvent) : Prop where
  nextId : s.nextId = Int64.ofNat ((allocations tr).length + 1)
  allocated : ∀ p ∈ allocations tr, ∃ i < (allocations tr).length, p.2 = Int64.ofNat (i + 1)
  allocated_nodup : FewIds tr → ((allocations tr).map Prod.snd).Nodup
  opened : ∀ p ∈ openings tr, p.2 < s.channels
  opened_nodup : ((openings tr).map Prod.snd).Nodup
  /-- A request is registered under an id and a channel of its own task. -/
  registered : ∀ r ∈ registrations tr, (r.tid, r.tx) ∈ openings tr ∧
    ∃ n, r.id = .integer n ∧ (r.tid, n) ∈ allocations tr
  ids_nodup : FewIds tr → ((registrations tr).map Registration.id).Nodup
  channels_nodup : ((registrations tr).map Registration.tx).Nodup
  pending : ∀ p ∈ s.pending, (∃ t, ⟨t, p.1, p.2⟩ ∈ registrations tr) ∧
    p.2 ∉ completions tr ∧ p.2 ∉ takings tr
  pending_nodup : (s.pending.map Prod.snd).Nodup
  /-- The channel of a pending request has not been used. -/
  unused : ∀ p ∈ s.pending, s.oneshots p.2 = .empty
  used : ∀ tx, s.oneshots tx ≠ .empty → ∃ r ∈ registrations tr, r.tx = tx
  sent : ∀ tx reply, s.oneshots tx = .sent reply → Completed tr tx reply
  completed : ∀ tx ∈ completions tr, ∃ r ∈ registrations tr, r.tx = tx
  completed_nodup : (completions tr).Nodup
  taken : ∀ tx ∈ takings tr, ∃ r ∈ registrations tr, r.tx = tx
  /-- Only the inbound loop completes anything. -/
  completer : ∀ e ∈ tr, completion e ≠ none → e.tid = .inboundLoop

/-- What a task has to know before it performs an operation. -/
def Permitted (t : Tid) (tr : List ClientEvent) : Op → Prop
  | .pendingInsert id tx =>
    ((∃ n, id = .integer n ∧ (t, n) ∈ allocations tr) ∧
      (FewIds tr → ∀ r ∈ registrations tr, r.id ≠ id)) ∧ (t, tx) ∈ openings tr ∧
        ∀ r ∈ registrations tr, r.tx ≠ tx
  | .pendingDispatch id reply => t = .inboundLoop ∧ ∃ past, ReadFrom tr past id reply
  | .oneshotSend tx reply => t = .inboundLoop ∧ tx ∈ takings tr ∧ tx ∉ completions tr ∧
      ∃ message, reply = .error (transportFailure message)
  | _ => True

/-- An event no history function sees. -/
structure Unseen (e : ClientEvent) : Prop where
  allocation : allocation e = none
  opening : opening e = none
  registration : registration e = none
  completion : completion e = none
  taking : taking e = []

section

variable {s s' : Inner} {tr : List ClientEvent} {e : ClientEvent} {t : Tid}

theorem AnsweredBy.cons {past : List ClientEvent} {id : RequestId} {tx : Nat} {reply : Reply}
    (h : AnsweredBy tr past t id tx reply) (e : ClientEvent) :
    AnsweredBy (e :: tr) past t id tx reply := by
  obtain ⟨newer, older, rfl, hread, hreg⟩ := h
  exact ⟨e :: newer, older, rfl, hread, hreg⟩

theorem Completed.cons {tx : Nat} {reply : Reply} (h : Completed tr tx reply) (e : ClientEvent) :
    Completed (e :: tr) tx reply := by
  rcases h with ⟨past, t, id, h⟩ | ⟨htaken, h⟩
  · exact .inl ⟨past, t, id, h.cons e⟩
  · exact .inr ⟨List.mem_append_right _ htaken, h⟩

theorem FewIds.suffix {tr' : List ClientEvent} (h : FewIds tr') (hs : tr <:+ tr') : FewIds tr :=
  Nat.le_trans (hs.sublist.filterMap allocation).length_le h

theorem FewIds.tail (h : FewIds (e :: tr)) : FewIds tr := h.suffix (List.suffix_cons e tr)

theorem takings_suffix {tr' : List ClientEvent} (hs : tr <:+ tr') {tx : Nat}
    (htx : tx ∈ takings tr) : tx ∈ takings tr' := by
  obtain ⟨new, rfl⟩ := hs
  rw [takings, List.flatMap_append]
  exact List.mem_append_right _ htx

theorem Correlated.completer_cons (h : Correlated s tr)
    (he : completion e ≠ none → e.tid = .inboundLoop) :
    ∀ e' ∈ e :: tr, completion e' ≠ none → e'.tid = .inboundLoop :=
  List.forall_mem_cons.2 ⟨he, h.completer⟩

/-- **Steps nobody's history sees** change nothing of what it is about. -/
theorem Correlated.unseen (h : Correlated s tr) (he : Unseen e) (hnext : s'.nextId = s.nextId)
    (hch : s'.channels = s.channels) (hpending : s'.pending = s.pending)
    (hslots : s'.oneshots = s.oneshots) : Correlated s' (e :: tr) := by
  have ha : allocations (e :: tr) = allocations tr := List.filterMap_cons_none he.allocation
  have ho : openings (e :: tr) = openings tr := List.filterMap_cons_none he.opening
  have hr : registrations (e :: tr) = registrations tr :=
    List.filterMap_cons_none he.registration
  have hc : completions (e :: tr) = completions tr := List.filterMap_cons_none he.completion
  have htk : takings (e :: tr) = takings tr := by simp [takings, he.taking]
  constructor
  case nextId => rw [hnext, ha, h.nextId]
  case allocated => rw [ha]; exact h.allocated
  case allocated_nodup => rw [ha]; exact fun hfew => h.allocated_nodup hfew.tail
  case opened => rw [ho, hch]; exact h.opened
  case opened_nodup => rw [ho]; exact h.opened_nodup
  case registered => rw [hr, ho, ha]; exact h.registered
  case ids_nodup => rw [hr]; exact fun hfew => h.ids_nodup hfew.tail
  case channels_nodup => rw [hr]; exact h.channels_nodup
  case pending => rw [hr, hc, htk, hpending]; exact h.pending
  case pending_nodup => rw [hpending]; exact h.pending_nodup
  case unused => rw [hpending, hslots]; exact h.unused
  case used => rw [hslots, hr]; exact h.used
  case sent => rw [hslots]; exact fun tx reply hs => (h.sent tx reply hs).cons e
  case completed => rw [hr, hc]; exact h.completed
  case completed_nodup => rw [hc]; exact h.completed_nodup
  case taken => rw [htk, hr]; exact h.taken
  case completer => exact h.completer_cons fun hne => absurd he.completion hne

/-- A removal drops one sender, that of the removed request, and completes nothing. -/
theorem remove_oneshots {id : RequestId} {tx : Nat}
    (h : (s.remove id).oneshots tx ≠ s.oneshots tx) :
    (id, tx) ∈ s.pending ∧ (s.remove id).oneshots tx = .closed := by
  rw [Inner.remove] at h ⊢
  cases hl : s.pending.lookup id with
  | none => simp [hl] at h
  | some tx' =>
    rw [hl] at h
    by_cases htx : tx = tx'
    · subst htx
      refine ⟨mem_of_lookup hl, ?_⟩
      cases hs : s.oneshots tx <;> simp_all [Oneshot.drop]
    · exact absurd (Function.update_of_ne htx _ _) h

/-- Forgetting a request. -/
theorem Correlated.remove (h : Correlated s tr) (id : RequestId) : Correlated (s.remove id) tr where
  nextId := (remove_nextId s id).trans h.nextId
  allocated := h.allocated
  allocated_nodup := h.allocated_nodup
  opened := by rw [remove_channels]; exact h.opened
  opened_nodup := h.opened_nodup
  registered := h.registered
  ids_nodup := h.ids_nodup
  channels_nodup := h.channels_nodup
  pending p hp := h.pending p (mem_remove hp).1
  pending_nodup := by
    rw [Inner.remove]
    split
    · exact h.pending_nodup.sublist (List.filter_sublist.map _)
    · exact h.pending_nodup
  unused := by
    intro p hp
    obtain ⟨hp, hne⟩ := mem_remove hp
    by_contra hslot
    have hchanged : (s.remove id).oneshots p.2 ≠ s.oneshots p.2 := by
      rwa [h.unused p hp]
    have hsame := List.inj_on_of_nodup_map h.pending_nodup hp (remove_oneshots hchanged).1 rfl
    exact hne (congrArg Prod.fst hsame)
  used := by
    intro tx hslot
    by_cases hchanged : (s.remove id).oneshots tx = s.oneshots tx
    · exact h.used tx (hchanged ▸ hslot)
    · obtain ⟨⟨t, ht⟩, -⟩ := h.pending _ (remove_oneshots hchanged).1
      exact ⟨_, ht, rfl⟩
  sent := by
    intro tx reply hslot
    by_cases hchanged : (s.remove id).oneshots tx = s.oneshots tx
    · exact h.sent tx reply (hchanged ▸ hslot)
    · cases hslot.symm.trans (remove_oneshots hchanged).2
  completed := h.completed
  completed_nodup := h.completed_nodup
  taken := h.taken
  completer := h.completer

/-- Ids repeat only after `2 ^ 64` of them. -/
theorem ofNat_ne {a b : Nat} (ha : a < 2 ^ 64) (hb : b < 2 ^ 64) (h : a ≠ b) :
    Int64.ofNat a ≠ Int64.ofNat b := by
  intro heq
  have hbv := congrArg (fun n => n.toBitVec.toNat) heq
  simp only [Int64.toBitVec_ofNat', BitVec.toNat_ofNat] at hbv
  omega

/-- The next id has not been given out. -/
theorem Correlated.nextId_new (h : Correlated s tr)
    (hfew : FewIds (.op t .nextIdFetchAdd s.nextId :: tr)) :
    s.nextId ∉ (allocations tr).map Prod.snd := by
  intro hmem
  obtain ⟨p, hp, heq⟩ := List.mem_map.1 hmem
  obtain ⟨i, hi, hpi⟩ := h.allocated p hp
  have hlast : (allocations tr).length + 1 ≤ 2 ^ 63 := hfew
  refine ofNat_ne ?_ ?_ ?_ (hpi.symm.trans (heq.trans h.nextId)) <;> omega

/-- Nothing is registered under the next id. -/
theorem Correlated.id_fresh (h : Correlated s tr)
    (hfew : FewIds (.op t .nextIdFetchAdd s.nextId :: tr)) :
    ∀ r ∈ registrations tr, r.id ≠ .integer s.nextId := by
  intro r hr hid
  obtain ⟨-, n, hn, hmem⟩ := h.registered r hr
  obtain rfl : n = s.nextId := by simpa [hn] using hid
  exact h.nextId_new hfew (List.mem_map_of_mem hmem)

/-- Nothing is registered with the next channel. -/
theorem Correlated.channel_fresh (h : Correlated s tr) :
    ∀ r ∈ registrations tr, r.tx ≠ s.channels := by
  intro r hr htx
  exact absurd (h.opened _ (h.registered r hr).1) (by simp [htx])

/-- Giving out an id. -/
theorem Correlated.allocate (h : Correlated s tr) (t : Tid) :
    Correlated { s with nextId := s.nextId + 1 } (.op t .nextIdFetchAdd s.nextId :: tr) := by
  have ha : allocations (.op t .nextIdFetchAdd s.nextId :: tr) = (t, s.nextId) :: allocations tr :=
    rfl
  constructor
  case nextId =>
    rw [ha, List.length_cons, h.nextId]
    exact (Int64.ofNat_add _ 1).symm
  case allocated =>
    rw [ha, List.forall_mem_cons, List.length_cons]
    refine ⟨⟨_, Nat.lt_succ_self _, h.nextId⟩, fun p hp => ?_⟩
    obtain ⟨i, hi, hpi⟩ := h.allocated p hp
    exact ⟨i, by omega, hpi⟩
  case allocated_nodup =>
    intro hfew
    rw [ha]
    exact List.nodup_cons.2 ⟨h.nextId_new hfew, h.allocated_nodup hfew.tail⟩
  case opened => exact h.opened
  case opened_nodup => exact h.opened_nodup
  case registered =>
    intro r hr
    obtain ⟨hopen, n, hid, hmem⟩ := h.registered r hr
    exact ⟨hopen, n, hid, List.mem_cons_of_mem _ hmem⟩
  case ids_nodup => exact fun hfew => h.ids_nodup hfew.tail
  case channels_nodup => exact h.channels_nodup
  case pending => exact h.pending
  case pending_nodup => exact h.pending_nodup
  case unused => exact h.unused
  case used => exact h.used
  case sent => exact fun tx reply hs => (h.sent tx reply hs).cons _
  case completed => exact h.completed
  case completed_nodup => exact h.completed_nodup
  case taken => exact h.taken
  case completer => exact h.completer_cons fun hne => absurd rfl hne

/-- Making a reply channel. -/
theorem Correlated.open (h : Correlated s tr) (t : Tid) :
    Correlated { s with channels := s.channels + 1 }
      (.op t .oneshotChannel s.channels :: tr) := by
  have ho : openings (.op t .oneshotChannel s.channels :: tr) = (t, s.channels) :: openings tr :=
    rfl
  constructor
  case opened =>
    rw [ho, List.forall_mem_cons]
    exact ⟨Nat.lt_succ_self _, fun p hp => Nat.lt_succ_of_lt (h.opened p hp)⟩
  case opened_nodup =>
    rw [ho]
    refine List.nodup_cons.2 ⟨fun hmem => ?_, h.opened_nodup⟩
    obtain ⟨p, hp, heq⟩ := List.mem_map.1 hmem
    exact absurd (h.opened p hp) (by omega)
  case nextId => exact h.nextId
  case allocated => exact h.allocated
  case allocated_nodup => exact h.allocated_nodup
  case registered =>
    intro r hr
    obtain ⟨hopen, halloc⟩ := h.registered r hr
    exact ⟨List.mem_cons_of_mem _ hopen, halloc⟩
  case ids_nodup => exact fun hfew => h.ids_nodup hfew.tail
  case channels_nodup => exact h.channels_nodup
  case pending => exact h.pending
  case pending_nodup => exact h.pending_nodup
  case unused => exact h.unused
  case used => exact h.used
  case sent => exact fun tx reply hs => (h.sent tx reply hs).cons _
  case completed => exact h.completed
  case completed_nodup => exact h.completed_nodup
  case taken => exact h.taken
  case completer => exact h.completer_cons fun hne => absurd rfl hne

/-- Adding a request under an id and a channel nobody has used. -/
theorem Correlated.append (h : Correlated s tr) {id : RequestId} {tx : Nat}
    (hp : Permitted t tr (.pendingInsert id tx)) :
    Correlated { s with pending := s.pending ++ [(id, tx)] }
      (.op t (.pendingInsert id tx) () :: tr) := by
  obtain ⟨⟨⟨n, hid, halloc⟩, hidFresh⟩, hopen, htxFresh⟩ := hp
  have hr : registrations (.op t (.pendingInsert id tx) () :: tr)
      = ⟨t, id, tx⟩ :: registrations tr := rfl
  have htx : ∀ p ∈ s.pending, p.2 ≠ tx := by
    intro p hp
    obtain ⟨⟨u, hu⟩, -, -⟩ := h.pending p hp
    exact htxFresh _ hu
  constructor
  case registered =>
    rw [hr, List.forall_mem_cons]
    exact ⟨⟨hopen, n, hid, halloc⟩, h.registered⟩
  case ids_nodup =>
    intro hfew
    rw [hr]
    refine List.nodup_cons.2 ⟨fun hmem => ?_, h.ids_nodup hfew.tail⟩
    obtain ⟨r, hr, heq⟩ := List.mem_map.1 hmem
    exact hidFresh hfew.tail r hr heq
  case channels_nodup =>
    rw [hr]
    refine List.nodup_cons.2 ⟨fun hmem => ?_, h.channels_nodup⟩
    obtain ⟨r, hr, heq⟩ := List.mem_map.1 hmem
    exact htxFresh r hr heq
  case pending =>
    rw [hr]
    intro p hp
    rcases List.mem_append.1 hp with hp | hp
    · obtain ⟨⟨u, hu⟩, hnot⟩ := h.pending p hp
      exact ⟨⟨u, List.mem_cons_of_mem _ hu⟩, hnot⟩
    · obtain rfl := List.mem_singleton.1 hp
      refine ⟨⟨t, List.mem_cons_self⟩, fun hmem => ?_, fun hmem => ?_⟩
      · obtain ⟨r, hr, heq⟩ := h.completed tx hmem
        exact htxFresh r hr heq
      · obtain ⟨r, hr, heq⟩ := h.taken tx hmem
        exact htxFresh r hr heq
  case pending_nodup =>
    rw [List.map_append, List.nodup_append]
    refine ⟨h.pending_nodup, by simp, ?_⟩
    rintro a ha b hb rfl
    obtain ⟨p, hp, rfl⟩ := List.mem_map.1 ha
    exact htx p hp (by simpa using hb)
  case unused =>
    intro p hp
    rcases List.mem_append.1 hp with hp | hp
    · exact h.unused p hp
    · obtain rfl := List.mem_singleton.1 hp
      by_contra hslot
      obtain ⟨r, hr, heq⟩ := h.used tx hslot
      exact htxFresh r hr heq
  case used =>
    intro tx' hslot
    obtain ⟨r, hr, heq⟩ := h.used tx' hslot
    exact ⟨r, List.mem_cons_of_mem _ hr, heq⟩
  case completed =>
    rw [hr]
    intro tx' hmem
    obtain ⟨r, hr, heq⟩ := h.completed tx' hmem
    exact ⟨r, List.mem_cons_of_mem _ hr, heq⟩
  case taken =>
    rw [hr]
    intro tx' hmem
    obtain ⟨r, hr, heq⟩ := h.taken tx' hmem
    exact ⟨r, List.mem_cons_of_mem _ hr, heq⟩
  case nextId => exact h.nextId
  case allocated => exact h.allocated
  case allocated_nodup => exact h.allocated_nodup
  case opened => exact h.opened
  case opened_nodup => exact h.opened_nodup
  case sent => exact fun tx reply hs => (h.sent tx reply hs).cons _
  case completed_nodup => exact h.completed_nodup
  case completer => exact h.completer_cons fun hne => absurd rfl hne

/-- Registering replaces whatever had the id. -/
theorem Correlated.register (h : Correlated s tr) {id : RequestId} {tx : Nat}
    (hp : Permitted t tr (.pendingInsert id tx)) :
    Correlated (s.insert id tx) (.op t (.pendingInsert id tx) () :: tr) :=
  (h.remove id).append hp

/-- Completing a channel, once: `e` is the completing event of the inbound loop, and the entry of
the channel is out of the map. -/
theorem Correlated.complete (h : Correlated s tr) {tx : Nat} {reply : Reply}
    (he : allocation e = none ∧ opening e = none ∧ registration e = none ∧ taking e = [])
    (hc : completion e = some tx) (hloop : e.tid = .inboundLoop)
    (hpending : ∃ pending : List (RequestId × Nat), s'.pending = pending ∧
      pending.Sublist s.pending ∧ tx ∉ pending.map Prod.snd)
    (hnext : s'.nextId = s.nextId) (hch : s'.channels = s.channels)
    (hslots : s'.oneshots = Function.update s.oneshots tx (.sent reply))
    (hreg : ∃ r ∈ registrations tr, r.tx = tx) (hnew : tx ∉ completions tr)
    (hcompleted : Completed (e :: tr) tx reply) : Correlated s' (e :: tr) := by
  have ha : allocations (e :: tr) = allocations tr := List.filterMap_cons_none he.1
  have ho : openings (e :: tr) = openings tr := List.filterMap_cons_none he.2.1
  have hr : registrations (e :: tr) = registrations tr := List.filterMap_cons_none he.2.2.1
  have hcs : completions (e :: tr) = tx :: completions tr := List.filterMap_cons_some hc
  have htk : takings (e :: tr) = takings tr := by simp [takings, he.2.2.2]
  obtain ⟨_, rfl, hsub, htx⟩ := hpending
  constructor
  case nextId => rw [hnext, ha, h.nextId]
  case allocated => rw [ha]; exact h.allocated
  case allocated_nodup => rw [ha]; exact fun hfew => h.allocated_nodup hfew.tail
  case opened => rw [ho, hch]; exact h.opened
  case opened_nodup => rw [ho]; exact h.opened_nodup
  case registered => rw [hr, ho, ha]; exact h.registered
  case ids_nodup => rw [hr]; exact fun hfew => h.ids_nodup hfew.tail
  case channels_nodup => rw [hr]; exact h.channels_nodup
  case pending =>
    rw [hr, hcs, htk]
    intro p hp
    obtain ⟨hu, hnot, htaken⟩ := h.pending p (hsub.subset hp)
    refine ⟨hu, fun hmem => ?_, htaken⟩
    rcases List.mem_cons.1 hmem with heq | hmem
    · exact htx (heq ▸ List.mem_map_of_mem hp)
    · exact hnot hmem
  case pending_nodup => exact h.pending_nodup.sublist (hsub.map _)
  case unused =>
    intro p hp
    have hne : p.2 ≠ tx := fun heq => htx (heq ▸ List.mem_map_of_mem hp)
    rw [hslots, Function.update_of_ne hne]
    exact h.unused p (hsub.subset hp)
  case used =>
    rw [hslots, hr]
    intro tx' hslot
    by_cases htx' : tx' = tx
    · exact htx' ▸ hreg
    · exact h.used tx' (by rwa [Function.update_of_ne htx'] at hslot)
  case sent =>
    intro tx' reply' hs
    rw [hslots] at hs
    by_cases htx' : tx' = tx
    · subst htx'
      rw [Function.update_self] at hs
      cases hs
      exact hcompleted
    · rw [Function.update_of_ne htx'] at hs
      exact (h.sent tx' reply' hs).cons e
  case completed =>
    rw [hr, hcs, List.forall_mem_cons]
    exact ⟨hreg, h.completed⟩
  case completed_nodup => rw [hcs]; exact List.nodup_cons.2 ⟨hnew, h.completed_nodup⟩
  case taken => rw [htk, hr]; exact h.taken
  case completer => exact h.completer_cons fun _ => hloop

/-- Taking all entries out of the map. -/
theorem Correlated.take (h : Correlated s tr) (t : Tid) :
    Correlated { s with pending := [] } (.op t .pendingTake s.pending :: tr) := by
  have htk : takings (.op t .pendingTake s.pending :: tr)
      = s.pending.map Prod.snd ++ takings tr := rfl
  constructor
  case pending => simp
  case pending_nodup => simp
  case unused => simp
  case used => exact h.used
  case taken =>
    rw [htk]
    intro tx hmem
    rcases List.mem_append.1 hmem with hmem | hmem
    · obtain ⟨p, hp, rfl⟩ := List.mem_map.1 hmem
      obtain ⟨⟨u, hu⟩, -⟩ := h.pending p hp
      exact ⟨_, hu, rfl⟩
    · exact h.taken tx hmem
  case nextId => exact h.nextId
  case allocated => exact h.allocated
  case allocated_nodup => exact h.allocated_nodup
  case opened => exact h.opened
  case opened_nodup => exact h.opened_nodup
  case registered => exact h.registered
  case ids_nodup => exact h.ids_nodup
  case channels_nodup => exact h.channels_nodup
  case sent => exact fun tx reply hs => (h.sent tx reply hs).cons _
  case completed => exact h.completed
  case completed_nodup => exact h.completed_nodup
  case completer => exact h.completer_cons fun hne => absurd rfl hne

/-! ## Every operation keeps it -/

/-- Handing a response to the request it is for, if there is one. -/
theorem Correlated.dispatch (h : Correlated s tr) {id : RequestId} {reply : Reply}
    (hp : Permitted t tr (.pendingDispatch id reply)) :
    Correlated (s.dispatch id reply).2
      (.op t (.pendingDispatch id reply) (s.dispatch id reply).1 :: tr) := by
  obtain ⟨rfl, past, hread⟩ := hp
  rw [Inner.dispatch]
  cases hl : s.pending.lookup id with
  | none => exact h.unseen ⟨rfl, rfl, rfl, rfl, rfl⟩ rfl rfl rfl rfl
  | some tx =>
    have hmem := mem_of_lookup hl
    obtain ⟨⟨u, hu⟩, hnew, -⟩ := h.pending _ hmem
    refine h.complete ⟨rfl, rfl, rfl, rfl⟩ rfl rfl ⟨_, rfl, List.filter_sublist, ?_⟩ rfl rfl rfl
      ⟨_, hu, rfl⟩ hnew (.inl ⟨past, u, id, [], tr, rfl, hread, hu⟩)
    intro hin
    obtain ⟨p, hp, heq⟩ := List.mem_map.1 hin
    obtain ⟨hp, hne⟩ := List.mem_filter.1 hp
    have := List.inj_on_of_nodup_map h.pending_nodup hp hmem heq
    simp [this] at hne

/-- **Every permitted operation keeps the invariant.** -/
theorem Correlated.exec (h : Correlated s tr) {o : Op} {ch : Choice} {a : o.Ans}
    (hp : Permitted t tr o) (hx : exec t o ch s = some (a, s')) :
    Correlated s' (.op t o a :: tr) := by
  cases o with
  | nextIdFetchAdd => cases hx; exact h.allocate t
  | oneshotChannel => cases hx; exact h.open t
  | pendingInsert id tx => cases hx; exact h.register hp
  | pendingRemove id =>
    cases hx
    exact (h.remove id).unseen ⟨rfl, rfl, rfl, rfl, rfl⟩ rfl rfl rfl rfl
  | pendingDispatch id reply =>
    have heq : s.dispatch id reply = (a, s') := Option.some.inj hx
    have hd := h.dispatch hp
    rwa [heq] at hd
  | pendingTake => cases hx; exact h.take t
  | oneshotSend tx reply =>
    cases hx
    obtain ⟨rfl, htaken, hnew, message, rfl⟩ := hp
    refine h.complete ⟨rfl, rfl, rfl, rfl⟩ rfl rfl ⟨_, rfl, List.Sublist.refl _, ?_⟩ rfl rfl rfl
      (h.taken tx htaken) hnew (.inr ⟨htaken, message, rfl⟩)
    intro hin
    obtain ⟨p, hp, rfl⟩ := List.mem_map.1 hin
    exact (h.pending p hp).2.2 htaken
  | _ =>
    obtain rfl := exec_after hx
    exact h.unseen ⟨rfl, rfl, rfl, rfl, rfl⟩ rfl rfl rfl rfl

end

theorem AnsweredBy.registered {tr past : List ClientEvent} {t : Tid} {id : RequestId} {tx : Nat}
    {reply : Reply} (h : AnsweredBy tr past t id tx reply) : ⟨t, id, tx⟩ ∈ registrations tr := by
  obtain ⟨newer, older, rfl, -, hreg⟩ := h
  rw [registrations, List.filterMap_append]
  exact List.mem_append_right _ (List.mem_filterMap.2
    (List.mem_filterMap.1 hreg |>.imp fun e he => ⟨List.mem_cons_of_mem _ he.1, he.2⟩))

/-- A reply found in the channel of a request is the reply to that request. -/
theorem Correlated.answered {s : Inner} {tr : List ClientEvent} {t : Tid} {id : RequestId}
    {tx : Nat} {reply : Reply} (h : Correlated s tr) (hreg : ⟨t, id, tx⟩ ∈ registrations tr)
    (hs : s.oneshots tx = .sent reply) :
    (∃ past, AnsweredBy tr past t id tx reply) ∨
      tx ∈ takings tr ∧ ∃ message, reply = .error (transportFailure message) := by
  rcases h.sent tx reply hs with ⟨past, u, id', hans⟩ | h'
  · have heq := List.inj_on_of_nodup_map h.channels_nodup hans.registered hreg rfl
    cases heq
    exact .inl ⟨past, hans⟩
  · exact .inr h'

/-! ## What a task knows of its own id and channel -/

section

variable {w w' : ClientWorld} {t : Tid}

theorem registration_tid {e : ClientEvent} {r : Registration} (h : registration e = some r) :
    r.tid = e.tid := by
  unfold registration at h
  split at h
  · cases h; rfl
  · cases h

/-- What was registered in the meantime was registered by somebody else. -/
theorem registered_elsewhere (h : Elsewhere t w w') {r : Registration}
    (hr : r ∈ registrations w'.trace) : r ∈ registrations w.trace ∨ r.tid ≠ t := by
  obtain ⟨new, hw', hnew⟩ := h
  rw [registrations, hw', List.filterMap_append] at hr
  rcases List.mem_append.1 hr with hr | hr
  · obtain ⟨e, he, heq⟩ := List.mem_filterMap.1 hr
    exact .inr (registration_tid heq ▸ hnew e he)
  · exact .inl hr

theorem allocations_mono (h : w.trace <:+ w'.trace) {p : Tid × Int64}
    (hp : p ∈ allocations w.trace) : p ∈ allocations w'.trace :=
  (h.sublist.filterMap _).subset hp

theorem openings_mono (h : w.trace <:+ w'.trace) {p : Tid × Nat}
    (hp : p ∈ openings w.trace) : p ∈ openings w'.trace :=
  (h.sublist.filterMap _).subset hp

theorem registrations_mono (h : w.trace <:+ w'.trace) {r : Registration}
    (hr : r ∈ registrations w.trace) : r ∈ registrations w'.trace :=
  (h.sublist.filterMap _).subset hr

/-- Nobody else registers under an id of `t`. -/
theorem id_fresh_elsewhere (h : Elsewhere t w w') (hc : Correlated w'.shared w'.trace) {n : Int64}
    (hfew : FewIds w'.trace) (ha : (t, n) ∈ allocations w.trace)
    (hf : ∀ r ∈ registrations w.trace, r.id ≠ .integer n) :
    ∀ r ∈ registrations w'.trace, r.id ≠ .integer n := by
  intro r hr hid
  rcases registered_elsewhere h hr with hr' | hne
  · exact hf r hr' hid
  · obtain ⟨-, n', hid', ha'⟩ := hc.registered r hr
    obtain rfl : n' = n := by simpa [hid'] using hid
    exact hne (congrArg Prod.fst
      (List.inj_on_of_nodup_map (hc.allocated_nodup hfew) ha' (allocations_mono h.suffix ha) rfl))

/-- Nobody else registers a channel of `t`. -/
theorem channel_fresh_elsewhere (h : Elsewhere t w w') (hc : Correlated w'.shared w'.trace)
    {tx : Nat} (ho : (t, tx) ∈ openings w.trace) (hf : ∀ r ∈ registrations w.trace, r.tx ≠ tx) :
    ∀ r ∈ registrations w'.trace, r.tx ≠ tx := by
  intro r hr htx
  rcases registered_elsewhere h hr with hr' | hne
  · exact hf r hr' htx
  · obtain ⟨ho', -⟩ := hc.registered r hr
    subst htx
    exact hne (congrArg Prod.fst
      (List.inj_on_of_nodup_map hc.opened_nodup ho' (openings_mono h.suffix ho) rfl))

theorem AnsweredBy.suffix {tr tr' past : List ClientEvent} {id : RequestId} {tx : Nat}
    {reply : Reply} (h : AnsweredBy tr past t id tx reply) (hs : tr <:+ tr') :
    AnsweredBy tr' past t id tx reply := by
  obtain ⟨new, rfl⟩ := hs
  obtain ⟨newer, older, rfl, hread, hreg⟩ := h
  exact ⟨new ++ newer, older, by simp, hread, hreg⟩

theorem ReadFrom.elsewhere {past : List ClientEvent} {id : RequestId} {reply : Reply}
    (hread : ReadFrom w.trace past id reply) (h : Elsewhere .inboundLoop w w') :
    ReadFrom w'.trace past id reply := by
  obtain ⟨new, hw', hnew⟩ := h
  obtain ⟨between, frame, hw, hb, hclass⟩ := hread
  refine ⟨new ++ between, frame, by rw [hw', hw, List.append_assoc], ?_, hclass⟩
  intro e he
  rcases List.mem_append.1 he with he | he
  · exact hnew e he
  · exact hb e he

/-- Nobody completes anything while the inbound loop does not. -/
theorem completions_elsewhere (h : Elsewhere .inboundLoop w w')
    (hc : Correlated w'.shared w'.trace) : completions w'.trace = completions w.trace := by
  obtain ⟨new, hw', hnew⟩ := h
  have hnone : completions new = [] := by
    rw [completions, List.filterMap_eq_nil_iff]
    intro e he
    by_contra hne
    exact hnew e he (hc.completer e (hw' ▸ List.mem_append_left _ he) hne)
  rw [completions, hw', List.filterMap_append]
  exact (congrArg (· ++ _) hnone).trans (List.nil_append _)

end

/-! ## The contract -/

/-- Of the entries of `t`, the map holds `only`, if any. -/
def PendingOnly (t : Tid) (only : Option (RequestId × Nat)) (w : ClientWorld) : Prop :=
  ∀ r ∈ registrations w.trace, r.tid = t → r.entry ∈ w.shared.pending → some r.entry = only

/-- The map holds no entry of `t`. -/
abbrev Released (t : Tid) (w : ClientWorld) : Prop := PendingOnly t none w

/-- What a task relies on: the others do only what is theirs, and bring none of its entries back. -/
structure Apart (t : Tid) (w w' : ClientWorld) : Prop where
  elsewhere : Elsewhere t w w'
  kept : ∀ r ∈ registrations w'.trace, r.tid = t → r.entry ∈ w'.shared.pending →
    r.entry ∈ w.shared.pending

/-- What a task knows after an operation of its own that registers nothing. -/
structure After (t : Tid) (o : Op) (a : o.Ans) (w w' : ClientWorld) : Prop where
  suffix : w.trace <:+ w'.trace
  mem : .op t o a ∈ w'.trace
  holds : ∀ only, PendingOnly t only w → PendingOnly t only w'

section

variable {t : Tid} {o : Op} {ch : Choice} {a : o.Ans} {s : Inner} {w w' w'' : ClientWorld}
  {only : Option (RequestId × Nat)}

theorem Apart.refl (t : Tid) (w : ClientWorld) : Apart t w w :=
  ⟨Elsewhere.refl t w, fun _ _ _ hp => hp⟩

theorem Apart.trans (t : Tid) (h : Apart t w w') (h' : Apart t w' w'') : Apart t w w'' where
  elsewhere := h.elsewhere.trans t h'.elsewhere
  kept r hr ht hp := by
    have hmem : r ∈ registrations w'.trace :=
      (registered_elsewhere h'.elsewhere hr).resolve_right fun hne => hne ht
    exact h.kept r hmem ht (h'.kept r hr ht hp)

theorem Apart.suffix (h : Apart t w w') : w.trace <:+ w'.trace := h.elsewhere.suffix

theorem Apart.holds (h : Apart t w w') (hw : PendingOnly t only w) : PendingOnly t only w' := by
  intro r hr ht hp
  have hmem : r ∈ registrations w.trace :=
    (registered_elsewhere h.elsewhere hr).resolve_right fun hne => hne ht
  exact hw r hmem ht (h.kept r hr ht hp)

/-- An entry that appears is one its task has just registered. -/
theorem Apart.push {u : Tid} (h : exec t o ch w.shared = some (a, s)) (hu : u ≠ t)
    (hc : Correlated s (.op t o a :: w.trace)) : Apart u w (w.push (.op t o a) s) where
  elsewhere := Elsewhere.push hu w rfl s
  kept r hr ht hp := by
    rcases exec_pending h hp with hp | rfl
    · exact hp
    · have hnew : (⟨t, r.id, r.tx⟩ : Registration)
          ∈ registrations (.op t (.pendingInsert r.id r.tx) a :: w.trace) := List.mem_cons_self
      have hsame := List.inj_on_of_nodup_map hc.channels_nodup hr hnew rfl
      exact absurd (ht.symm.trans (congrArg Registration.tid hsame)) hu

theorem registrations_of_not_insert (ho : ∀ id tx, o ≠ .pendingInsert id tx)
    (tr : List ClientEvent) : registrations (.op t o a :: tr) = registrations tr := by
  refine List.filterMap_cons_none ?_
  unfold registration
  split
  · rename_i heq
    cases heq
    exact absurd rfl (ho _ _)
  · rfl

theorem PendingOnly.op (hw : PendingOnly t only w) (hx : exec t o ch w.shared = some (a, s))
    (ho : ∀ id tx, o ≠ .pendingInsert id tx) : PendingOnly t only (w.push (.op t o a) s) := by
  intro r hr ht hp
  rw [World.push_trace, registrations_of_not_insert ho] at hr
  exact hw r hr ht ((exec_pending hx hp).resolve_right (ho _ _))

theorem PendingOnly.insert {id : RequestId} {tx : Nat} (hw : Released t w)
    (hx : exec t (.pendingInsert id tx) ch w.shared = some ((), s)) :
    PendingOnly t (some (id, tx)) (w.push (.op t (.pendingInsert id tx) ()) s) := by
  intro r hr ht hp
  rcases exec_pending hx hp with hp | heq
  · rcases List.mem_cons.1 hr with rfl | hr
    · rfl
    · cases hw r hr ht hp
  · cases heq
    rfl

/-- Before it has done anything, a task has no entries. -/
theorem released_first (hfirst : ∀ e ∈ w.trace, e.tid ≠ t) : Released t w := by
  intro r hr ht
  obtain ⟨e, he, heq⟩ := List.mem_filterMap.1 hr
  exact absurd (registration_tid heq ▸ ht) (hfirst e he)

end

/-- Every world is correlated; a task relies on the others leaving its requests alone. -/
def correlation : Contract Tid Call Op Inner Op.Ans where
  inv w := Correlated w.shared w.trace
  rely := Apart
  law := Machine.anyStep
  rely_refl := Apart.refl
  rely_trans t := Apart.trans t

section

variable {env : Env} {t : Tid} {α : Type} {w : ClientWorld} {Q : α → ClientWorld → Prop}

/-- A permitted operation, and what is known after it. -/
theorem safe_permitted {o : Op} {k : o.Ans → ClientM α}
    (h : ∀ w', Apart t w w' → Correlated w'.shared w'.trace → Permitted t w'.trace o ∧
      ∀ ch a s, exec t o ch w'.shared = some (a, s) → Correlated s (.op t o a :: w'.trace) →
        Safe (client env) correlation t Q (k a) (w'.push (.op t o a) s)) :
    Safe (client env) correlation t Q (perform o >>= k) w := by
  intro w' hr hi ch a s hx _
  obtain ⟨hp, hk⟩ := h w' hr hi
  have hi' : Correlated s (.op t o a :: w'.trace) := Correlated.exec hi hp hx
  exact ⟨⟨hi', fun u hu => Apart.push hx hu hi'⟩, hk ch a s hx hi'⟩

/-- An operation anybody may perform at any time. -/
theorem safe_free {o : Op} {k : o.Ans → ClientM α} (ho : ∀ tr, Permitted t tr o)
    (h : ∀ w' a, After t o a w w' → Safe (client env) correlation t Q (k a) w') :
    Safe (client env) correlation t Q (perform o >>= k) w := by
  have hinsert : ∀ id tx, o ≠ .pendingInsert id tx := by
    rintro id tx rfl
    exact absurd (ho []).2.1 List.not_mem_nil
  refine safe_permitted fun w' hr _ => ⟨ho _, fun ch a s hx _ => h _ a ?_⟩
  exact ⟨hr.suffix.trans (List.suffix_cons _ _), List.mem_cons_self,
    fun only hw => (hr.holds hw).op hx hinsert⟩

end

end CodexSdk
