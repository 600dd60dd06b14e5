import Mathlib.Data.List.AList
import SkadiCore.Common.Bytes
import SkadiCore.Common.Channel
import SkadiCore.Common.Run

/-!
# Packet-up sessions

Model of `PacketState` and `XhttpSession` (`crates/skadi-transport/src/xhttp/session.rs`,
lines 13-84): the packets of an upload arrive in any order, each with its sequence
number, and are put in order into a bounded queue.
-/

namespace SkadiCore.Xhttp

def uploadQueueSize : ℕ := 256

abbrev UploadQueue := Channel Bytes uploadQueueSize

/-- `PacketState` (lines 17-20): sequence numbers are `u64`, `pending` is a map. -/
structure PacketState where
  nextSeq : ℕ
  pending : AList fun _ : ℕ => Bytes

namespace PacketState

def new : PacketState := ⟨0, ∅⟩

def next (st : PacketState) : PacketState :=
  ⟨(st.nextSeq + 1) % 2 ^ 64, st.pending.erase st.nextSeq⟩

theorem length_next {st : PacketState} (h : st.nextSeq ∈ st.pending) :
    st.next.pending.keys.length < st.pending.keys.length := by
  rw [next, AList.keys_erase, List.length_erase_of_mem h]
  exact Nat.sub_lt (List.length_pos_of_mem h) one_pos

def release (st : PacketState) (tx : UploadQueue) : PacketState × UploadQueue :=
  match _h : st.pending.lookup st.nextSeq with
  | none => (st, tx)
  | some chunk => release st.next (tx.offer chunk)
termination_by st.pending.keys.length
decreasing_by exact length_next (AList.lookup_isSome.mp (by simp [_h]))

/-- `PacketState::push` (lines 30-39). -/
def push (st : PacketState) (seq : ℕ) (payload : Bytes) (tx : UploadQueue) :
    PacketState × UploadQueue :=
  if seq < st.nextSeq then (st, tx)
  else release { st with pending := st.pending.insert seq payload } tx

end PacketState

structure XhttpSession where
  uploadTx : UploadQueue
  packets : PacketState

inductive SessionAct
  | push (seq : ℕ)
  | recv

namespace XhttpSession

def new : XhttpSession := ⟨.new Bytes uploadQueueSize, .new⟩

/-- `push_packet` (lines 80-83). -/
def pushPacket (s : XhttpSession) (seq : ℕ) (payload : Bytes) : XhttpSession :=
  let (packets, uploadTx) := s.packets.push seq payload s.uploadTx
  ⟨uploadTx, packets⟩

def step (payload : ℕ → Bytes) (n : ℕ) (s : XhttpSession) : SessionAct → Option XhttpSession
  | .push seq => if seq < n then some (s.pushPacket seq (payload seq)) else none
  | .recv => s.uploadTx.recv.map fun tx => { s with uploadTx := tx }

/-- A push finds room in the queue for every packet that it makes next in line: if with
    the pushed packet the next `k + 1` ones are there, `k + 1` slots are free. -/
def FindsRoom (s : XhttpSession) : SessionAct → Prop
  | .push seq => ∀ k, (∀ j ≤ k, s.packets.nextSeq + j = seq ∨ s.packets.nextSeq + j ∈
      s.packets.pending) → s.uploadTx.queue.length + k < uploadQueueSize
  | .recv => True

end XhttpSession

/-! ## The loop -/

structure PacketState.Ordered (payload : ℕ → Bytes) (n : ℕ) (st : PacketState)
    (tx : UploadQueue) : Prop where
  isOpen : tx.closed = false
  sent : tx.sent = (List.range st.nextSeq).map payload
  le : st.nextSeq ≤ n
  pending : ∀ k chunk, st.pending.lookup k = some chunk →
    chunk = payload k ∧ st.nextSeq ≤ k ∧ k < n

namespace PacketState

variable {payload : ℕ → Bytes} {n : ℕ} {st : PacketState} {tx : UploadQueue}

theorem nextSeq_next (hlt : st.nextSeq + 1 < 2 ^ 64) : st.next.nextSeq = st.nextSeq + 1 :=
  Nat.mod_eq_of_lt hlt

theorem Ordered.next {chunk : Bytes} (hn : n < 2 ^ 64) (hi : st.Ordered payload n tx)
    (h : st.pending.lookup st.nextSeq = some chunk)
    (hroom : tx.queue.length < uploadQueueSize) :
    st.next.nextSeq = st.nextSeq + 1 ∧ st.next.Ordered payload n (tx.offer chunk) := by
  obtain ⟨rfl, -, hlt⟩ := hi.pending _ _ h
  have hnext : st.next.nextSeq = st.nextSeq + 1 := nextSeq_next (by omega)
  obtain ⟨hq, hr, hc⟩ := Channel.offer_of_lt hi.isOpen hroom (payload st.nextSeq)
  refine ⟨hnext, hc, ?_, by omega, ?_⟩
  · have hsent := hi.sent
    simp only [Channel.sent] at hsent ⊢
    rw [hq, hr, ← List.append_assoc, hsent, hnext, List.range_succ, List.map_append]
    rfl
  · intro k chunk hk
    have hne : k ≠ st.nextSeq := by
      rintro rfl
      simp [PacketState.next, AList.lookup_erase] at hk
    rw [PacketState.next, AList.lookup_erase_ne hne] at hk
    obtain ⟨hchunk, hle, hlt⟩ := hi.pending k chunk hk
    exact ⟨hchunk, by omega, hlt⟩

theorem Ordered.release (hn : n < 2 ^ 64) (hi : st.Ordered payload n tx)
    (hroom : ∀ k, (∀ j ≤ k, st.nextSeq + j ∈ st.pending) →
      tx.queue.length + k < uploadQueueSize) :
    (st.release tx).1.Ordered payload n (st.release tx).2 ∧
      (st.release tx).1.nextSeq ∉ (st.release tx).1.pending ∧
      st.nextSeq ≤ (st.release tx).1.nextSeq ∧
      ∀ k ∈ st.pending, k < (st.release tx).1.nextSeq ∨ k ∈ (st.release tx).1.pending := by
  fun_induction PacketState.release st tx with
  | case1 st tx h =>
    exact ⟨hi, AList.lookup_eq_none.mp h, le_rfl, fun k hk => .inr hk⟩
  | case2 st tx chunk h ih =>
    have hmem : st.nextSeq ∈ st.pending := AList.lookup_isSome.mp (by simp [h])
    have hfree : tx.queue.length < uploadQueueSize := by
      refine hroom 0 fun j hj => ?_
      rwa [Nat.le_zero.mp hj, Nat.add_zero]
    obtain ⟨hnext, hi'⟩ := hi.next hn h hfree
    obtain ⟨hord, hend, hle, hkeep⟩ := ih hi' (by
      intro k hk
      have := hroom (k + 1) (by
        intro j hj
        obtain _ | j := j
        · exact hmem
        · have := (AList.mem_erase.mp (hk j (by omega))).2
          rwa [hnext, Nat.add_right_comm] at this)
      rw [(Channel.offer_of_lt hi.isOpen hfree chunk).1, List.length_append]
      simp only [List.length_singleton]
      omega)
    refine ⟨hord, hend, by omega, fun k hk => ?_⟩
    obtain rfl | hne := eq_or_ne k st.nextSeq
    · exact .inl (by omega)
    · exact hkeep k (AList.mem_erase.mpr ⟨hne, hk⟩)

theorem release_of_none (h : st.pending.lookup st.nextSeq = none) :
    st.release tx = (st, tx) := by
  rw [PacketState.release]
  split <;> simp_all

theorem release_of_some {chunk : Bytes} (h : st.pending.lookup st.nextSeq = some chunk) :
    st.release tx = st.next.release (tx.offer chunk) := by
  rw [PacketState.release]
  split <;> simp_all

theorem push_next {k : ℕ} (hk : k + 1 < 2 ^ 64) (chunk : Bytes) (tx : UploadQueue) :
    push ⟨k, ∅⟩ k chunk tx = (⟨k + 1, ∅⟩, tx.offer chunk) := by
  have herase : (AList.insert k chunk (∅ : AList fun _ : ℕ => Bytes)).erase k = ∅ := by
    rw [AList.insert_empty]
    exact AList.ext (List.kerase_cons_eq rfl)
  have hnext : next ⟨k, AList.insert k chunk ∅⟩ = ⟨k + 1, ∅⟩ := by
    rw [next, herase, Nat.mod_eq_of_lt hk]
  rw [push, if_neg (lt_irrefl k), release_of_some (AList.lookup_insert _), hnext]
  exact release_of_none (AList.lookup_empty _)

theorem Ordered.insert {seq : ℕ} (hi : st.Ordered payload n tx) (hle : st.nextSeq ≤ seq)
    (hlt : seq < n) :
    Ordered payload n ⟨st.nextSeq, st.pending.insert seq (payload seq)⟩ tx := by
  refine ⟨hi.isOpen, hi.sent, hi.le, fun k chunk hk => ?_⟩
  obtain rfl | hne := eq_or_ne k seq
  · rw [AList.lookup_insert] at hk
    cases hk
    exact ⟨rfl, hle, hlt⟩
  · rw [AList.lookup_insert_ne hne] at hk
    exact hi.pending k chunk hk

end PacketState

/-! ## Whole runs -/

namespace XhttpSession

variable {payload : ℕ → Bytes} {n : ℕ} {s t : XhttpSession} {as : List SessionAct}

structure Inv (payload : ℕ → Bytes) (n : ℕ) (as : List SessionAct) (s : XhttpSession) : Prop where
  ordered : s.packets.Ordered payload n s.uploadTx
  gap : s.packets.nextSeq ∉ s.packets.pending
  kept : ∀ k, .push k ∈ as → k < s.packets.nextSeq ∨ k ∈ s.packets.pending

theorem Inv.push {seq : ℕ} (hn : n < 2 ^ 64) (hi : s.Inv payload n as) (hlt : seq < n)
    (hroom : s.FindsRoom (.push seq)) :
    (s.pushPacket seq (payload seq)).Inv payload n (as ++ [.push seq]) := by
  by_cases hold : seq < s.packets.nextSeq
  · -- a packet delivered again after it was released
    simp only [pushPacket, PacketState.push, if_pos hold]
    refine ⟨hi.ordered, hi.gap, fun k hk => ?_⟩
    simp only [List.mem_append, List.mem_singleton, SessionAct.push.injEq] at hk
    obtain hk | rfl := hk
    · exact hi.kept k hk
    · exact .inl hold
  · simp only [pushPacket, PacketState.push, if_neg hold]
    obtain ⟨hord, hend, hle, hkeep⟩ := (hi.ordered.insert (not_lt.mp hold) hlt).release hn
      fun k hk => hroom k fun j hj => (AList.mem_insert _).mp (hk j hj)
    refine ⟨hord, hend, fun k hk => ?_⟩
    simp only [List.mem_append, List.mem_singleton, SessionAct.push.injEq] at hk
    obtain hk | rfl := hk
    · obtain hk | hk := hi.kept k hk
      · exact .inl (hk.trans_le hle)
      · exact hkeep k ((AList.mem_insert _).mpr (.inr hk))
    · exact hkeep k ((AList.mem_insert _).mpr (.inl rfl))

theorem Inv.recv (hi : s.Inv payload n as) (h : s.step payload n .recv = some t) :
    t.Inv payload n (as ++ [.recv]) := by
  obtain ⟨tx, htx, rfl⟩ := Option.map_eq_some_iff.mp h
  obtain ⟨-, -, -, -, -, hc⟩ := Channel.recv_eq htx
  obtain ⟨hord, hgap, hkept⟩ := hi
  exact ⟨⟨hc.trans hord.isOpen, (Channel.sent_recv htx).trans hord.sent, hord.le, hord.pending⟩,
    hgap, fun k hk => hkept k (by simpa using hk)⟩

theorem new_inv (payload : ℕ → Bytes) (n : ℕ) : new.Inv payload n [] := by
  refine ⟨⟨rfl, rfl, Nat.zero_le _, ?_⟩, AList.notMem_empty _, by simp⟩
  intro k chunk h
  simp [new, PacketState.new] at h

theorem run_inv (hn : n < 2 ^ 64) (h : Run (step payload n) FindsRoom new as s) :
    s.Inv payload n as := by
  induction h with
  | nil => exact new_inv payload n
  | @snoc t u as a _ hroom hst ih =>
    cases a with
    | push seq =>
      simp only [step, Option.ite_none_right_eq_some, Option.some.injEq] at hst
      obtain ⟨hlt, rfl⟩ := hst
      exact ih.push hn hlt hroom
    | recv => exact ih.recv hst

theorem Inv.nextSeq_eq (hi : s.Inv payload n as) (hall : ∀ k < n, .push k ∈ as) :
    s.packets.nextSeq = n := by
  by_contra hne
  have hlt : s.packets.nextSeq < n := lt_of_le_of_ne hi.ordered.le hne
  obtain h | h := hi.kept _ (hall _ hlt)
  · exact lt_irrefl _ h
  · exact hi.gap h

/-- For every upload of `n` packets, every order of arrival, repeated deliveries and
    every pace of the consumer: while every push finds room, what the consumer has is a
    prefix of the upload, and all of it once everything was pushed and taken. -/
theorem packets_delivered (hn : n < 2 ^ 64) (h : Run (step payload n) FindsRoom new as s) :
    s.uploadTx.received <+: (List.range n).map payload ∧
      ((∀ k < n, .push k ∈ as) → s.uploadTx.queue = [] →
        s.uploadTx.received = (List.range n).map payload) := by
  have hi := run_inv hn h
  have hsent := hi.ordered.sent
  rw [Channel.sent] at hsent
  constructor
  · obtain ⟨d, hd⟩ := Nat.exists_eq_add_of_le hi.ordered.le
    refine (List.prefix_append _ s.uploadTx.queue).trans ?_
    rw [hsent, hd, List.range_add, List.map_append]
    exact List.prefix_append _ _
  · intro hall hq
    rw [hi.nextSeq_eq hall, hq, List.append_nil] at hsent
    exact hsent

theorem findsRoom_of_lt (h : s.uploadTx.queue.length + s.packets.pending.keys.length <
    uploadQueueSize) (a : SessionAct) : s.FindsRoom a := by
  cases a with
  | recv => trivial
  | push seq =>
    intro k hk
    have hsub : (List.range (k + 1)).map (s.packets.nextSeq + ·) ⊆
        seq :: s.packets.pending.keys := by
      intro i hi
      obtain ⟨j, hj, rfl⟩ := List.mem_map.mp hi
      exact List.mem_cons.mpr (hk j (Nat.lt_succ_iff.mp (List.mem_range.mp hj)))
    have hlen := (List.subperm_of_subset
      (List.nodup_range.map (add_right_injective s.packets.nextSeq)) hsub).length_le
    simp only [List.length_map, List.length_range, List.length_cons] at hlen
    omega

theorem drain (payload : ℕ → Bytes) (n : ℕ) (s : XhttpSession) :
    ∃ t, Run (step payload n) Any s (List.replicate s.uploadTx.queue.length .recv) t ∧
      t.packets = s.packets ∧ t.uploadTx.queue = [] ∧ t.uploadTx.received = s.uploadTx.sent ∧
      t.uploadTx.closed = s.uploadTx.closed := by
  induction hq : s.uploadTx.queue generalizing s with
  | nil => exact ⟨s, .nil s, rfl, hq, by simp [Channel.sent, hq], rfl⟩
  | cons x queue ih =>
    obtain ⟨tx, htx⟩ := Channel.exists_recv hq
    obtain ⟨x', queue', hq', hqueue, -, hc⟩ := Channel.recv_eq htx
    obtain ⟨rfl, rfl⟩ := List.cons.inj (hq.symm.trans hq')
    obtain ⟨t, hrun, hp, hempty, hr, hc'⟩ := ih ⟨tx, s.packets⟩ hqueue
    refine ⟨t, ?_, hp, hempty, hr.trans (Channel.sent_recv htx), hc'.trans hc⟩
    exact (Run.single trivial (by simp [step, htx])).append hrun

theorem step_push_next (payload : ℕ → Bytes) {k : ℕ} (hk : k < n) (hlt : k + 1 < 2 ^ 64)
    (hs : s.packets = ⟨k, ∅⟩) :
    step payload n s (.push k) = some ⟨s.uploadTx.offer (payload k), ⟨k + 1, ∅⟩⟩ := by
  simp [step, hk, pushPacket, hs, PacketState.push_next hlt]

theorem fill (payload : ℕ → Bytes) {k : ℕ} (hk : k ≤ uploadQueueSize) (hn : k ≤ n) :
    ∃ s, Run (step payload n) FindsRoom new ((List.range k).map .push) s ∧
      s.packets = ⟨k, ∅⟩ ∧ s.uploadTx.queue = (List.range k).map payload ∧
      s.uploadTx.received = [] ∧ s.uploadTx.closed = false := by
  induction k with
  | zero => exact ⟨new, .nil _, rfl, rfl, rfl, rfl⟩
  | succ k ih =>
    obtain ⟨s, hrun, hp, hq, hr, hc⟩ := ih (by omega) (by omega)
    have hlen : s.uploadTx.queue.length = k := by simp [hq]
    obtain ⟨hq', hr', hc'⟩ := Channel.offer_of_lt hc (by omega) (payload k)
    have hroom : s.FindsRoom (.push k) := findsRoom_of_lt (by simp [hlen, hp]; omega) _
    have hst := step_push_next payload (by omega : k < n)
      (by simp only [uploadQueueSize] at hk; omega) hp
    rw [List.range_succ, List.map_append]
    exact ⟨_, hrun.snoc hroom hst, rfl, by simp [hq', hq], hr'.trans hr, hc'⟩

def numbered (k : ℕ) : Bytes := [UInt8.ofNat k]

theorem packets_delivered_swapped : ∃ s, Run (step numbered 2) FindsRoom new
      [.push 1, .push 0, .push 1, .recv, .recv] s ∧
      s.uploadTx.received = (List.range 2).map numbered := by
  have h1 : step numbered 2 new (.push 1) =
      some ⟨.new _ _, ⟨0, AList.insert 1 (numbered 1) ∅⟩⟩ := by
    simp only [step, pushPacket, new, PacketState.new, PacketState.push]
    rw [PacketState.release_of_none rfl]
    rfl
  have h2 : step numbered 2 ⟨.new _ _, ⟨0, AList.insert 1 (numbered 1) ∅⟩⟩ (.push 0) =
      some ⟨⟨[], [numbered 0, numbered 1], false, by decide⟩, ⟨2, ∅⟩⟩ := by
    simp only [step, pushPacket, PacketState.push]
    rw [PacketState.release_of_some rfl, PacketState.release_of_some rfl,
      PacketState.release_of_none rfl]
    rfl
  have hroom (s : XhttpSession) (a : SessionAct) (h : s.uploadTx.queue.length < 100 ∧
      s.packets.pending.keys.length < 100) : s.FindsRoom a :=
    findsRoom_of_lt (by simp only [uploadQueueSize]; omega) a
  have hrun : Run (step numbered 2) FindsRoom new [.push 1, .push 0, .push 1, .recv, .recv]
      ⟨⟨[numbered 0, numbered 1], [], false, by decide⟩, ⟨2, ∅⟩⟩ := by
    refine (((((Run.nil _).snoc ?_ h1).snoc ?_ h2).snoc ?_ rfl).snoc trivial rfl).snoc trivial rfl
    all_goals exact hroom _ _ (by decide)
  refine ⟨_, hrun, (packets_delivered (by decide) hrun).2 ?_ rfl⟩
  intro k hk
  interval_cases k <;> simp

theorem packets_lost : ∃ as s, Run (step numbered 258) Any new as s ∧
      (∀ k < 258, .push k ∈ as) ∧ s.uploadTx.queue = [] ∧
      s.uploadTx.received = (List.range 256).map numbered ++ [numbered 257] ∧
      ¬ s.uploadTx.received <+: (List.range 258).map numbered := by
  obtain ⟨s₁, hrun₁, hp₁, hq₁, hr₁, hc₁⟩ :=
    fill numbered (n := 258) (le_refl uploadQueueSize) (by decide)
  have hdrop := step_push_next numbered (n := 258) (by decide) (by decide) hp₁
  rw [Channel.offer_of_full (by simp [hq₁])] at hdrop
  obtain ⟨s₂, hrun₂, hp₂, hq₂, hr₂, hc₂⟩ :=
    drain numbered 258 ⟨s₁.uploadTx, ⟨257, ∅⟩⟩
  have hlast := step_push_next numbered (n := 258) (by decide) (by decide) hp₂
  obtain ⟨hq₃, hr₃, -⟩ := Channel.offer_of_lt (hc₂.trans hc₁) (by simp [hq₂, uploadQueueSize])
    (numbered 257)
  obtain ⟨s₄, hrun₄, -, hq₄, hr₄, -⟩ := drain numbered 258
    ⟨s₂.uploadTx.offer (numbered 257), ⟨258, ∅⟩⟩
  have hreceived : s₄.uploadTx.received = (List.range 256).map numbered ++ [numbered 257] := by
    rw [hr₄, Channel.sent, hr₃, hq₃, hq₂, hr₂, Channel.sent, hr₁, hq₁]
    rfl
  refine ⟨_, s₄, (((hrun₁.any.snoc trivial hdrop).append hrun₂).snoc trivial hlast).append hrun₄,
    ?_, hq₄, hreceived, ?_⟩
  · intro k hk
    simp only [uploadQueueSize, List.mem_append, List.mem_map, List.mem_range, List.mem_singleton,
      SessionAct.push.injEq, exists_eq_right]
    omega
  · rw [hreceived, show (258 : ℕ) = 256 + 2 from rfl, List.range_add, List.map_append,
      List.prefix_append_right_inj]
    decide

end XhttpSession

end SkadiCore.Xhttp
