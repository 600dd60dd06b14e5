import SkadiCore.Mux.RelayInv

/-!
# The end of the mux relay

Only the end of the client stream leads to the cleanup behind the frame loop. A
timeout, a read error or a failing frame handler returns at once, and a second XUDP
NEW frame overwrites the recorded GlobalID of an open cone.
-/

namespace SkadiCore.Mux

open SkadiCore.Relay

def MuxFrame.rejected (f : MuxFrame) : Bool :=
  (f.meta_.status == SESSION_STATUS_NEW && f.meta_.target.isNone) ||
    (f.meta_.status != SESSION_STATUS_NEW && f.meta_.status != SESSION_STATUS_KEEP &&
      f.meta_.status != SESSION_STATUS_END && f.meta_.status != SESSION_STATUS_KEEP_ALIVE)

def Act.exitsEarly : Act → Bool
  | .main (.frame f _) => f.rejected
  | .main (.readError _) | .main .idleTimeout | .main .lifetimeTimeout | .main (.connectErr _)
  | .main (.initialErr _) | .main (.keepErr _) | .main (.bind (.error _)) | .main (.sendToErr _)
  | .write .main (.failed _) => true
  | _ => false

def Main.plain : Main → Bool
  | .acquire .. | .bind _ | .sendTo _ | .closeCone | .returned _ => false
  | _ => true

namespace Relay

variable {s t : Relay} {a : Act} {limits : RelayLimits}

def noneLive (s : Relay) : Bool :=
  (List.range s.table.next).all fun u =>
    (s.table.task u).all fun x => x.aborted || x.status != .running

def recorded (s : Relay) : Option GlobalId := s.xudp.bind XudpCone.globalId

def keepsGlobalId (s : Relay) : Act → Bool
  | .main (.frame f _) =>
    !(isXudpFrame f.meta_ && f.meta_.status == SESSION_STATUS_NEW && s.xudp.isSome &&
      f.meta_.globalId.isSome) || s.recorded == f.meta_.globalId
  | _ => true

def acquireSucceeds (s : Relay) : Act → Bool
  | .main (.acquire (.error _)) => match s.main with
    | .acquire _ id => (s.registry.entries.lookup id).isSome
    | _ => true
  | _ => true

def leavesNothing (s : Relay) (a : Act) : Bool :=
  (!a.exitsEarly || (s.noneLive && s.recorded.isNone)) &&
    ((s.opensId a).all fun ki => s.table.keyFree ki.1) && s.keepsGlobalId a && s.acquireSucceeds a

/-- No reader lives. -/
def NoneLive (s : Relay) : Prop := ∀ u k, ¬ s.table.Live u k

/-- No reader lives, and every acquired XUDP entry was detached. -/
def TornDown (s : Relay) : Prop :=
  s.NoneLive ∧ ∀ id, s.calls.count (.acquire id) = s.calls.count (.detach id)

theorem NoneLive.of_table (h : s.NoneLive) (ht : t.table = s.table) : t.NoneLive := by
  unfold NoneLive
  rw [ht]
  exact h

theorem noneLive_iff (hf : s.table.Fresh) : s.noneLive = true ↔ s.NoneLive := by
  refine hf.all_iff.trans ⟨?_, ?_⟩
  · intro h u k hu
    simpa using h u _ hu
  · rintro h u ⟨key, status, aborted⟩ hx
    by_contra hne
    obtain ⟨rfl, rfl⟩ : aborted = false ∧ status = .running := by simpa using hne
    exact h u key hx

/-! ## Calls on the registry -/

def held (s : Relay) : Option GlobalId :=
  match s.main with
  | .acquire _ id => some id
  | _ => s.recorded

def Balance (calls : List Call) (held : Option GlobalId) : Prop :=
  ∀ id, calls.count (.acquire id) = calls.count (.detach id) + if held = some id then 1 else 0

theorem Balance.acquire {calls : List Call} (h : Balance calls none) (id : GlobalId) :
    Balance (calls ++ [.acquire id]) (some id) := by
  intro id'
  have := h id'
  by_cases hid : id = id' <;> simp_all [List.count_append]

theorem Balance.detach {calls : List Call} {id : GlobalId} (h : Balance calls (some id)) :
    Balance (calls ++ [.detach id]) none := by
  intro id'
  have := h id'
  by_cases hid : id = id' <;> simp_all [List.count_append]

/-- The calls balance up to the GlobalID held. While `acquire` or `bind` runs there
    is no cone, while a datagram is sent there is one. Behind the loop no session
    reader is live, and a relay that returned holds no GlobalID. -/
structure Books (s : Relay) : Prop where
  balance : Balance s.calls s.held
  unopened : ((∃ f id, s.main = .acquire f id) ∨ ∃ f, s.main = .bind f) → s.xudp = none
  sending : ∀ payload, s.main = .sendTo payload → s.xudp.isSome = true
  closing : s.main = .closeCone → s.NoneLive
  returned : ∀ r, s.main = .returned r → s.recorded = none ∧ s.NoneLive

theorem held_of_plain (h : s.main.plain = true) : s.held = s.recorded := by
  unfold held
  cases hm : s.main <;> first | rfl | (rw [hm] at h; cases h)

theorem Books.of_plain (h : s.main.plain = true) (hb : Balance s.calls s.recorded) : s.Books := by
  refine ⟨held_of_plain h ▸ hb, ?_, ?_, ?_, ?_⟩
  · rintro (⟨f, id, hm⟩ | ⟨f, hm⟩) <;> rw [hm] at h <;> cases h
  · intro payload hm; rw [hm] at h; cases h
  · intro hm; rw [hm] at h; cases h
  · intro r hm; rw [hm] at h; cases h

theorem Books.of_returned {r : Except IoError (ℕ × ℕ)} (hm : s.main = .returned r)
    (hb : Balance s.calls none) (hend : s.recorded = none ∧ s.NoneLive) : s.Books := by
  refine ⟨?_, ?_, ?_, ?_, fun _ _ => hend⟩
  · simpa [held, hm, hend.1] using hb
  · rintro (⟨f, id, hm'⟩ | ⟨f, hm'⟩) <;> rw [hm] at hm' <;> cases hm'
  · intro payload hm'; rw [hm] at hm'; cases hm'
  · intro hm'; rw [hm] at hm'; cases hm'

section

variable (hb : Balance s.calls s.recorded)
include hb

theorem startXudpReaderIfNeeded_books (hx : s.xudp.isSome = true) :
    s.startXudpReaderIfNeeded.Books := by
  obtain ⟨⟨globalId, socket, readerTask⟩, hcone⟩ := Option.isSome_iff_exists.mp hx
  unfold recorded at hb
  rw [hcone] at hb
  unfold startXudpReaderIfNeeded
  rw [hcone]
  cases readerTask with
  | some c => exact .of_plain rfl (by simpa [recorded, hcone] using hb)
  | none => exact .of_plain rfl (by simpa [recorded] using hb)

theorem xudpSend_books (hx : s.xudp.isSome = true) (f : MuxFrame) : (s.xudpSend f).Books := by
  unfold xudpSend
  cases f.nonEmptyPayload with
  | none => exact startXudpReaderIfNeeded_books hb hx
  | some payload =>
    refine ⟨hb, ?_, fun _ _ => hx, ?_, ?_⟩
    · rintro (⟨f, id, hm⟩ | ⟨f, hm⟩) <;> cases hm
    · intro hm; cases hm
    · intro r hm; cases hm

theorem ensureXudpCone_books (f : MuxFrame) {globalId : Option GlobalId}
    (hid : s.xudp.isSome = true → globalId.isSome = true → s.recorded = globalId) :
    (s.ensureXudpCone f globalId).Books := by
  unfold ensureXudpCone
  cases hx : s.xudp with
  | some cone =>
    refine xudpSend_books ?_ rfl f
    have hrec : s.recorded = cone.globalId := by simp [recorded, hx]
    have hkeep : (globalId.orElse fun _ => cone.globalId) = s.recorded := by
      cases globalId with
      | none => exact hrec.symm
      | some id => exact (hid (by simp [hx]) rfl).symm
    show Balance s.calls (globalId.orElse fun _ => cone.globalId)
    rw [hkeep]; exact hb
  | none =>
    have hrec : s.recorded = none := by simp [recorded, hx]
    rw [hrec] at hb
    cases globalId with
    | some id =>
      refine ⟨hb.acquire id, fun _ => rfl, ?_, ?_, ?_⟩
      · intro payload hm; cases hm
      · intro hm; cases hm
      · intro r hm; cases hm
    | none =>
      refine ⟨hb, fun _ => rfl, ?_, ?_, ?_⟩
      · intro payload hm; cases hm
      · intro hm; cases hm
      · intro r hm; cases hm

theorem closeXudpCone_books (now : ℕ) :
    Balance (s.closeXudpCone now).calls none ∧ (s.closeXudpCone now).recorded = none ∧
      (s.closeXudpCone now).main = s.main := by
  unfold closeXudpCone
  cases hx : s.xudp with
  | none =>
    have hrec : s.recorded = none := by simp [recorded, hx]
    exact ⟨hrec ▸ hb, hrec, rfl⟩
  | some cone =>
    obtain ⟨globalId, socket, readerTask⟩ := cone
    have hrec : s.recorded = globalId := by simp [recorded, hx]
    rw [hrec] at hb
    cases globalId with
    | none => cases readerTask <;> exact ⟨hb, rfl, rfl⟩
    | some id =>
      cases readerTask <;> dsimp only [detach] <;> rw [abortHandles_eq] <;>
        exact ⟨hb.detach, rfl, rfl⟩

theorem handleXudpFrame_books (hm : s.main = .select) (f : MuxFrame) (now : ℕ)
    (hxf : isXudpFrame f.meta_ = true)
    (hid : s.keepsGlobalId (.main (.frame f now)) = true)
    (hexit : f.rejected = true → s.recorded = none ∧ s.NoneLive) :
    (s.handleXudpFrame f now).Books := by
  have hplain : s.main.plain = true := by rw [hm]; rfl
  unfold handleXudpFrame
  split_ifs with hnew hkeep hnone hend hka
  · split
    · rename_i ht
      have hrec := hexit (by simp [MuxFrame.rejected, hnew, ht])
      exact .of_returned rfl (hrec.1 ▸ hb) hrec
    · refine ensureXudpCone_books hb f fun hx hg => ?_
      simpa [keepsGlobalId, hxf, hnew, hx, hg] using hid
  · split
    · exact ensureXudpCone_books hb f (by simp)
    · exact .of_plain hplain hb
  · split
    · exact xudpSend_books hb (by simpa [Option.isSome_iff_ne_none] using hnone) f
    · exact .of_plain hplain hb
  · obtain ⟨hbal, hrec, hmain⟩ := closeXudpCone_books hb now
    exact .of_plain (by rw [hmain]; exact hplain) (by rw [hrec]; exact hbal)
  · exact .of_plain hplain hb
  · have hrec := hexit (by simp [MuxFrame.rejected, hnew, hkeep, hend, hka])
    exact .of_returned rfl (hrec.1 ▸ hb) hrec

theorem handleMuxFrame_books (hm : s.main = .select) (f : MuxFrame) (now : ℕ)
    (hid : s.keepsGlobalId (.main (.frame f now)) = true)
    (hexit : f.rejected = true → s.recorded = none ∧ s.NoneLive) :
    (s.handleMuxFrame f now).Books := by
  have hplain : s.main.plain = true := by rw [hm]; rfl
  unfold handleMuxFrame
  split_ifs with hxf hnew hkeep hend hka
  · exact handleXudpFrame_books hb hm f now hxf hid hexit
  · split
    · rename_i ht
      have hrec := hexit (by simp [MuxFrame.rejected, hnew, ht])
      exact .of_returned rfl (hrec.1 ▸ hb) hrec
    · dsimp only
      split_ifs <;> exact .of_plain rfl hb
  · unfold forwardKeepFrame
    split
    · exact .of_plain rfl hb
    · split
      · exact .of_plain rfl hb
      · exact .of_plain hplain hb
  · exact .of_plain hplain hb
  · exact .of_plain hplain hb
  · have hrec := hexit (by simp [MuxFrame.rejected, hnew, hkeep, hend, hka])
    exact .of_returned rfl (hrec.1 ▸ hb) hrec

end

theorem acquireInner_ne_error {f : MuxFrame} {id : GlobalId} {bind : Except String ℕ}
    (hs : s.main = .acquire f id) (hacq : s.acquireSucceeds (.main (.acquire bind)) = true)
    (e : IoError) : (s.registry.acquireInner id bind).2.2 ≠ .error e := by
  unfold XudpManager.acquireInner
  cases hl : s.registry.entries.lookup id with
  | some entry => dsimp only; split_ifs <;> simp
  | none =>
    cases bind with
    | ok socket => simp
    | error msg => simp [acquireSucceeds, hs, hl] at hacq

theorem exit_of_leavesNothing (hi : s.TableInv) (hC : s.leavesNothing a = true)
    (he : a.exitsEarly = true) : s.recorded = none ∧ s.NoneLive := by
  have hlive := noneLive_iff hi.fresh
  simp only [leavesNothing, he, Bool.not_true, Bool.false_or, Bool.and_eq_true] at hC
  exact ⟨by simpa using hC.1.1.1.2, hlive.mp hC.1.1.1.1⟩

theorem mainStep_books {a : MainAct} (hi : s.TableInv) (htr : s.table.Tracked) (hb : s.Books)
    (hC : s.leavesNothing (.main a) = true) (h : s.mainStep limits a = some t) : t.Books := by
  have hrec := exit_of_leavesNothing hi hC
  simp only [leavesNothing, Bool.and_eq_true] at hC
  obtain ⟨⟨-, hid⟩, hacq⟩ := hC
  have hplain : s.main.plain = true → Balance s.calls s.recorded := fun hp =>
    held_of_plain hp ▸ hb.balance
  have hexit : ∀ e, (Act.main a).exitsEarly = true → s.main.plain = true → (s.fail e).Books :=
    fun e he hp => .of_returned rfl ((hrec he).1 ▸ hplain hp) (hrec he)
  replace h := mainStep_cases h
  cases h with
  | frame hs f now => exact handleMuxFrame_books (hplain (by rw [hs]; rfl)) hs f now hid hrec
  | eof hs =>
    have hdrained : ∀ u k, ¬ s.table.drain.Live u k := fun u k =>
      htr.drain_not_live (hi.opening (by simp [hs]))
    refine ⟨hplain (by rw [hs]; rfl), ?_, ?_, fun _ => hdrained, ?_⟩
    · rintro (⟨f, id, hm⟩ | ⟨f, hm⟩) <;> cases hm
    · intro payload hm; cases hm
    · intro r hm; cases hm
  | readError hs | idleTimeout hs | lifetimeTimeout hs | connectErr hs | initialErr hs =>
    exact hexit _ rfl (by rw [hs]; rfl)
  | connectOk hs | keepOk hs | insert hs => exact .of_plain rfl (hplain (by rw [hs]; rfl))
  | @spawn _ f tcp i sent h =>
    have hp : s.main.plain = true := by
      obtain ⟨hs, -⟩ | ⟨payload, hs, -⟩ := h <;> rw [hs] <;> rfl
    exact .of_plain (by cases i <;> rfl) (hplain hp)
  | keepRequest hs | keepEnter hs =>
    exact .of_plain (by simp [setUpstream, hs, Main.plain]) (hplain (by rw [hs]; rfl))
  | keepErr hs => exact .of_returned rfl ((hrec rfl).1 ▸ hplain (by rw [hs]; rfl)) (hrec rfl)
  | acquireErr hs he => exact absurd he (acquireInner_ne_error hs hacq _)
  | @acquireOk f id bind socket hit hs h =>
    have hheld : Balance s.calls (some id) := by simpa [held, hs] using hb.balance
    refine xudpSend_books ?_ rfl f
    rw [abortHandles_eq]
    exact hheld
  | @bindErr f hs msg =>
    have hx : s.xudp = none := hb.unopened (.inr ⟨f, hs⟩)
    have hbal : Balance s.calls none := by simpa [held, hs, recorded, hx] using hb.balance
    exact .of_returned rfl hbal (hrec rfl)
  | @bindOk f hs socket =>
    have hx : s.xudp = none := hb.unopened (.inr ⟨f, hs⟩)
    have hbal : Balance s.calls none := by simpa [held, hs, recorded, hx] using hb.balance
    exact xudpSend_books hbal rfl f
  | @sendToOk payload hs =>
    have hbal : Balance s.calls s.recorded := by simpa [held, hs] using hb.balance
    exact startXudpReaderIfNeeded_books hbal (hb.sending payload hs)
  | sendToErr hs =>
    have hbal : Balance s.calls none := by simpa [held, hs, (hrec rfl).1] using hb.balance
    exact .of_returned rfl hbal (hrec rfl)
  | closeCone hs now =>
    have hbal : Balance s.calls s.recorded := by simpa [held, hs] using hb.balance
    obtain ⟨hbal, hnone, -⟩ := closeXudpCone_books hbal now
    have htable := (closeXudpCone_handles s now).table
    exact .of_returned rfl hbal ⟨hnone, (hb.closing hs).of_table htable⟩

/-! ## Session readers -/

theorem Effect.tracked (he : Effect s a t) (hi : s.Inv)
    (hC : (s.opensId a).all (fun ki => s.table.keyFree ki.1) = true) (ht : s.table.Tracked) :
    t.table.Tracked := by
  cases he with
  | quiet h | registry h => rw [h.table]; exact ht
  | endSession => exact ht.remove _
  | eof => exact ht.drain
  | @spawn a f tcp i sent h =>
    simp only [h.opensId, Option.all_some] at hC
    have hfree := hi.fresh.keyFree_iff.mp hC
    have hclosed : s.table.opening = none :=
      hi.opening (by rcases h with ⟨hm, -⟩ | ⟨payload, hm, -⟩ <;> simp [hm])
    cases i with
    | true => exact ht.spawn hfree hclosed
    | false => exact (ht.spawn hfree hclosed).insert
  | insert => exact ht.insert
  | remove hu => exact ht.finish hu.running_key
  | dropReader hu => exact ht.drop _
  | _ => exact ht

theorem Effect.noneLive (he : Effect s a t) (hopen : s.opensId a = none) (h : s.NoneLive) :
    t.NoneLive := by
  intro u k hu
  cases he with
  | quiet hq | registry hq => exact h u k (hq.table ▸ hu)
  | endSession => exact h u k (TaskTable.live_of_remove hu)
  | eof => exact h u k (TaskTable.live_of_drain hu).1
  | @spawn a f tcp i sent ho => rw [ho.opensId] at hopen; cases hopen
  | insert => exact h u k (by simpa [TaskTable.Live] using hu)
  | remove hx => exact h u k ((TaskTable.live_finish hx.task).mp hu).2
  | dropReader => exact h u k ((TaskTable.live_setStatus (by simp)).mp hu).2
  | _ => exact h u k hu

theorem Books.of_same (hb : s.Books) (hm : t.main = s.main) (hx : t.xudp = s.xudp)
    (hc : t.calls = s.calls) (hlive : s.NoneLive → t.NoneLive) : t.Books := by
  have hrec : t.recorded = s.recorded := by simp [recorded, hx]
  have hheld : t.held = s.held := by simp [held, hm, hrec]
  refine ⟨by rw [hc, hheld]; exact hb.balance, ?_, ?_, ?_, ?_⟩
  · rw [hm, hx]; exact hb.unopened
  · rw [hm, hx]; exact hb.sending
  · rw [hm]; exact fun h => hlive (hb.closing h)
  · rw [hm, hrec]; exact fun r h => ⟨(hb.returned r h).1, hlive (hb.returned r h).2⟩

theorem Effect.books (he : Effect s a t) (ha : ∀ m, a ≠ .main m) (hi : s.TableInv)
    (hC : s.leavesNothing a = true) (hb : s.Books) : t.Books := by
  have hopen : s.opensId a = none := by
    cases a with
    | main m => exact absurd rfl (ha m)
    | _ => rfl
  have hlive := he.noneLive hopen
  cases he with
  | quiet | answer | keep | endSession | eof | spawn | insert | keepRequest | keepEnter | keepOk
  | keepErr => exact absurd rfl (ha _)
  | registry => refine hb.of_same ?_ ?_ ?_ hlive <;> rw [registryStep_eq]
  | wroteMain hs =>
    have hbal : Balance s.calls s.recorded := by simpa [held, hs] using hb.balance
    exact .of_plain rfl hbal
  | failMain hs =>
    have hend := exit_of_leavesNothing hi hC rfl
    have hbal : Balance s.calls none := by simpa [held, hs, hend.1] using hb.balance
    exact .of_returned rfl hbal hend
  | _ => exact hb.of_same rfl rfl rfl hlive

theorem init_books (registry : XudpManager Handle) : (init registry).Books :=
  .of_plain rfl fun id => by simp [init, recorded]

theorem books_of_run {registry : XudpManager Handle} {as : List Act}
    (h : Run (step limits) (leavesNothing · ·) (init registry) as s) : s.Books := by
  have hall := h.invariant (I := fun s => s.Inv ∧ s.table.Tracked ∧ s.Books) ?_
    ⟨init_inv registry, TaskTable.init_owned.toTracked, init_books registry⟩
  · exact hall.2.2
  · rintro s a t ⟨hi, htr, hb⟩ hC hst
    have he := step_effect hst
    have hfree : (s.opensId a).all (fun ki => s.table.keyFree ki.1) = true := by
      simp only [leavesNothing, Bool.and_eq_true] at hC
      exact hC.1.1.2
    refine ⟨he.inv hi, he.tracked hi hfree htr, ?_⟩
    cases a with
    | main m => exact mainStep_books hi.toTableInv htr hb hC hst
    | _ => exact he.books (by simp) hi.toTableInv hC hb

def globalIdOf (b : Byte) : GlobalId := ⟨List.replicate 8 b, rfl⟩

def xudpNew (b : Byte) : MuxFrame :=
  newFrame XUDP_SESSION_ID NETWORK_UDP (.ip (.v4 (ipv4Addr 1 1 1 1) 53)) (some (globalIdOf b)) none

def xudpTwice (b : Byte) : List Act :=
  openTcp 1 false ++ [.main (.frame (xudpNew 7) 0), .main (.acquire (.ok 40000)),
    .main (.frame (xudpNew b) 0), .main .eof, .main (.closeCone 0)]

end Relay

end SkadiCore.Mux
