import SkadiCore.Common.Chunks

/-!
# A connection served by one task under a timeout

Straight-line code that reads from a peer, writes to it and may fail. The
environment is part of the state: the bytes the peer sends, whether it closes its
side behind them, and which of the coming I/O operations fail. A read for which
the peer never sends enough ends when the timeout strikes.

* `Conn.Ok m c a c'`: the program `m`, started on `c`, returns `a` and leaves `c'`.
* `Conn.Takes c c' k ins outs`: from `c` to `c'` there are `k` operations, none of
  which fails; they read `ins` and write `outs`. Two stretches compose
  (`Takes.trans`), and a stretch splits (`Takes.split`).
* `ok_bind`, `ok_readExact`, `ok_writeAll`: what a program that returns has done.
* `Conn.Quiet m`: the program writes nothing.
-/

namespace SkadiCore

inductive Failure (ε : Type*)
  | elapsed
  | error (e : ε)

structure Fault (ε : Type*) where
  failure : Failure ε
  written : ℕ

structure Conn (β ε : Type*) where
  input : List β
  eof : Bool
  output : List β
  faults : List (Option (Fault ε))

abbrev ConnM (β ε : Type) := ExceptT (Failure ε) (StateM (Conn β ε))

namespace Conn

variable {β ε α γ : Type}

def fail (e : ε) : ConnM β ε α := throw (.error e)

def operate (partly : ℕ → Conn β ε → Conn β ε) (whole : ConnM β ε α) : ConnM β ε α := do
  let c ← get
  set { c with faults := c.faults.tail }
  match c.faults.head?.join with
  | none => whole
  | some f =>
    modify (partly f.written)
    throw f.failure

def readExact (n : ℕ) (early : ε) : ConnM β ε (List β) :=
  if n = 0 then pure []
  else operate (fun _ c => c) do
    let c ← get
    if c.input.length < n then
      set { c with input := [] }
      throw (if c.eof then .error early else .elapsed)
    else
      set { c with input := c.input.drop n }
      pure (c.input.take n)

def writeAll (bs : List β) : ConnM β ε Unit :=
  operate (fun n c => { c with output := c.output ++ bs.take n })
    (modify fun c => { c with output := c.output ++ bs })

def orFail {δ : Type} (r : Except δ α) (f : δ → ε) : ConnM β ε α :=
  match r with
  | .error e => fail (f e)
  | .ok a => pure a

def ignore (m : ConnM β ε Unit) : ConnM β ε Unit :=
  tryCatch m fun
    | .elapsed => throw .elapsed
    | .error _ => pure ()

def context (m : ConnM β ε α) (e : ε) : ConnM β ε α :=
  tryCatch m fun
    | .elapsed => throw .elapsed
    | .error _ => fail e

def timeout (m : ConnM β ε α) (e : ε) : ConnM β ε α :=
  tryCatch m fun
    | .elapsed => fail e
    | .error e => fail e

def exec (m : ConnM β ε α) (c : Conn β ε) : Except (Failure ε) α × Conn β ε := (m.run.run c).run

/-! ## What a program that returns has done -/

/-- On `c`, `m` succeeds with `a` and leaves `c'`. -/
def Ok (m : ConnM β ε α) (c : Conn β ε) (a : α) (c' : Conn β ε) : Prop :=
  exec m c = (.ok a, c')

structure Takes (c c' : Conn β ε) (k : ℕ) (ins outs : List β) : Prop where
  clear : ∀ f ∈ c.faults.take k, f = none
  input : c.input = ins ++ c'.input
  eof : c'.eof = c.eof
  output : c'.output = c.output ++ outs
  faults : c'.faults = c.faults.drop k

variable {m : ConnM β ε α} {f : α → ConnM β ε γ} {c c' c'' : Conn β ε} {a : α} {b : γ} {e : ε}
  {k k' : ℕ} {ins ins' outs outs' : List β}

theorem Takes.refl (c : Conn β ε) : Takes c c 0 [] [] :=
  ⟨by simp, rfl, rfl, by simp, rfl⟩

theorem Takes.trans (h : Takes c c' k ins outs) (h' : Takes c' c'' k' ins' outs') :
    Takes c c'' (k + k') (ins ++ ins') (outs ++ outs') where
  clear := by
    intro x hx
    rw [List.take_add, List.mem_append] at hx
    rcases hx with hx | hx
    · exact h.clear x hx
    · exact h'.clear x (by rwa [h.faults])
  input := by rw [h.input, h'.input, List.append_assoc]
  eof := h'.eof.trans h.eof
  output := by rw [h'.output, h.output, List.append_assoc]
  faults := by rw [h'.faults, h.faults, List.drop_drop]

theorem Takes.split (h : Takes c c'' (k + k') (ins ++ ins') (outs ++ outs')) :
    ∃ c', Takes c c' k ins outs ∧ Takes c' c'' k' ins' outs' := by
  refine ⟨⟨ins' ++ c''.input, c.eof, c.output ++ outs, c.faults.drop k⟩,
    ⟨fun x hx => h.clear x ?_, ?_, rfl, rfl, rfl⟩,
    ⟨fun x hx => h.clear x ?_, rfl, h.eof, ?_, ?_⟩⟩
  · rw [List.take_add, List.mem_append]; exact .inl hx
  · rw [h.input, List.append_assoc]
  · rw [List.take_add, List.mem_append]; exact .inr hx
  · rw [h.output, List.append_assoc]
  · rw [h.faults, List.drop_drop]

theorem Takes.split_reads (k k' : ℕ) (h : Takes c c'' (k + k') (ins ++ ins') outs) :
    ∃ c', Takes c c' k ins [] ∧ Takes c' c'' k' ins' outs :=
  (show Takes c c'' (k + k') (ins ++ ins') ([] ++ outs) from h).split

theorem Takes.eq (h : Takes c c' k ins outs) :
    c' = ⟨c'.input, c.eof, c.output ++ outs, c.faults.drop k⟩ := by
  rw [← h.eof, ← h.output, ← h.faults]

@[simp]
theorem exec_pure (a : α) (c : Conn β ε) : exec (pure a : ConnM β ε α) c = (.ok a, c) := rfl

@[simp]
theorem exec_throw (e : Failure ε) (c : Conn β ε) :
    exec (throw e : ConnM β ε α) c = (.error e, c) := rfl

@[simp]
theorem exec_get (c : Conn β ε) : exec (get : ConnM β ε _) c = (.ok c, c) := rfl

@[simp]
theorem exec_set (c c' : Conn β ε) : exec (set c' : ConnM β ε _) c = (.ok ⟨⟩, c') := rfl

@[simp]
theorem exec_modify (g : Conn β ε → Conn β ε) (c : Conn β ε) :
    exec (modify g : ConnM β ε _) c = (.ok ⟨⟩, g c) := rfl

@[simp]
theorem exec_bind (m : ConnM β ε α) (f : α → ConnM β ε γ) (c : Conn β ε) :
    exec (m >>= f) c = match exec m c with
      | (.ok a, c') => exec (f a) c'
      | (.error e, c') => (.error e, c') := by
  unfold exec ExceptT.run StateT.run Id.run
  simp only [bind, ExceptT.bind, ExceptT.mk, StateT.bind, ExceptT.bindCont]
  rcases m c with ⟨(e | a), c'⟩ <;> rfl

@[simp]
theorem exec_map (g : α → γ) (m : ConnM β ε α) (c : Conn β ε) :
    exec (g <$> m) c = match exec m c with
      | (.ok a, c') => (.ok (g a), c')
      | (.error e, c') => (.error e, c') := by
  rw [map_eq_pure_bind, exec_bind]
  rfl

@[simp]
theorem exec_tryCatch (m : ConnM β ε α) (h : Failure ε → ConnM β ε α) (c : Conn β ε) :
    exec (tryCatch m h) c = match exec m c with
      | (.ok a, c') => (.ok a, c')
      | (.error e, c') => exec (h e) c' := by
  unfold exec ExceptT.run StateT.run Id.run
  simp only [tryCatch, tryCatchThe, MonadExceptOf.tryCatch, ExceptT.tryCatch, ExceptT.mk, bind,
    StateT.bind]
  rcases m c with ⟨(e | a), c'⟩ <;> rfl

@[simp]
theorem ok_pure {a' : α} : Ok (pure a) c a' c' ↔ a' = a ∧ c' = c := by
  simp [Ok, eq_comm]

theorem ok_bind : Ok (m >>= f) c b c'' ↔ ∃ a c', Ok m c a c' ∧ Ok (f a) c' b c'' := by
  rcases hm : exec m c with ⟨(e | a), c₁⟩ <;> simp [Ok, hm]

@[simp]
theorem ok_fail : ¬ Ok (fail e : ConnM β ε α) c a c' := by
  simp [Ok, fail]

@[simp]
theorem ok_orFail {δ : Type} {r : Except δ α} {g : δ → ε} :
    Ok (orFail r g : ConnM β ε α) c a c' ↔ r = .ok a ∧ c' = c := by
  cases r <;> simp [orFail, eq_comm]

theorem ok_ite {p : Prop} [Decidable p] {m' : ConnM β ε α} :
    Ok (if p then m else m') c a c' ↔ (p ∧ Ok m c a c') ∨ (¬ p ∧ Ok m' c a c') := by
  split_ifs with h <;> simp [h]

theorem ok_timeout : Ok (timeout m e) c a c' ↔ Ok m c a c' := by
  rcases hm : exec m c with ⟨(e' | a'), c₁⟩
  · cases e' <;> simp [Ok, timeout, fail, hm]
  · simp [Ok, timeout, hm]

theorem exec_timeout_snd (m : ConnM β ε α) (e : ε) (c : Conn β ε) :
    (exec (timeout m e) c).2 = (exec m c).2 := by
  rw [timeout, exec_tryCatch]
  rcases exec m c with ⟨((- | e') | a), c₁⟩ <;> rfl

theorem ok_context : Ok (context m e) c a c' ↔ Ok m c a c' := by
  rcases hm : exec m c with ⟨(e' | a'), c₁⟩
  · cases e' <;> simp [Ok, context, fail, hm]
  · simp [Ok, context, hm]

theorem ok_operate {g : ℕ → Conn β ε → Conn β ε} : Ok (operate g m) c a c' ↔
    (∀ f ∈ c.faults.take 1, f = none) ∧ Ok m { c with faults := c.faults.tail } a c' := by
  obtain ⟨input, eof, output, faults⟩ := c
  rcases faults with - | ⟨(- | f), faults⟩ <;> simp [Ok, operate]

variable {bs : List β}

theorem ok_readExact {n : ℕ} (hn : n ≠ 0) :
    Ok (readExact n e) c bs c' ↔ bs.length = n ∧ Takes c c' 1 bs [] := by
  rw [readExact, if_neg hn, ok_operate]
  constructor
  · rintro ⟨hclear, h⟩
    by_cases hlen : c.input.length < n
    · simp [Ok, hlen] at h
    · simp only [Ok, exec_bind, exec_get, if_neg hlen, exec_set, exec_pure, Prod.mk.injEq,
        Except.ok.injEq] at h
      obtain ⟨rfl, rfl⟩ := h
      exact ⟨by simp; omega, hclear, by simp, rfl, by simp, by simp⟩
  · rintro ⟨rfl, ht⟩
    refine ⟨ht.clear, ?_⟩
    rw [ht.eq]
    simp [Ok, ht.input]

theorem ok_writeAll {x : Unit} : Ok (writeAll bs) c x c' ↔ Takes c c' 1 [] bs := by
  rw [writeAll, ok_operate]
  constructor
  · rintro ⟨hclear, h⟩
    obtain rfl : _ = c' := by simpa [Ok] using h
    exact ⟨hclear, by simp, rfl, rfl, by simp⟩
  · intro ht
    refine ⟨ht.clear, ?_⟩
    rw [ht.eq]
    simp [Ok, ht.input]

/-! ## Connections without faults

Operations need not be counted there. -/

theorem takes_nil : Takes c c' 0 [] [] ↔ c' = c := by
  constructor
  · intro h
    rw [h.eq, show c'.input = c.input from h.input.symm]
    simp
  · rintro rfl
    exact .refl _

theorem Takes.faults_nil (hc : c.faults = []) (h : Takes c c' 0 ins outs) : c'.faults = [] := by
  simp [h.faults, hc]

theorem takes_iff_of_faults_nil (hc : c.faults = []) :
    Takes c c' k ins outs ↔ Takes c c' 0 ins outs := by
  constructor
  · exact fun h => ⟨by simp, h.input, h.eof, h.output, by simp [h.faults, hc]⟩
  · exact fun h => ⟨by simp [hc], h.input, h.eof, h.output, by simp [h.faults, hc]⟩

theorem ok_readExact_of_faults_nil {n : ℕ} (hc : c.faults = []) :
    Ok (readExact n e) c bs c' ↔ bs.length = n ∧ Takes c c' 0 bs [] := by
  by_cases hn : n = 0
  · subst hn
    rw [readExact, if_pos rfl, ok_pure, List.length_eq_zero_iff]
    refine and_congr_right fun h => ?_
    rw [h, takes_nil]
  · rw [ok_readExact hn, takes_iff_of_faults_nil hc]

theorem ok_writeAll_of_faults_nil {x : Unit} (hc : c.faults = []) :
    Ok (writeAll bs) c x c' ↔ Takes c c' 0 [] bs := by
  rw [ok_writeAll, takes_iff_of_faults_nil hc]

theorem ok_writeAll_self (hc : c.faults = []) (bs : List β) :
    Ok (writeAll bs) c ⟨⟩ { c with output := c.output ++ bs } :=
  (ok_writeAll_of_faults_nil hc).mpr ⟨by simp, rfl, rfl, rfl, rfl⟩

theorem exec_readExact_append {n : ℕ} (h : bs.length = n) (e : ε) (rest : List β) (eof : Bool)
    (output : List β) :
    exec (readExact n e) ⟨bs ++ rest, eof, output, []⟩ = (.ok bs, ⟨rest, eof, output, []⟩) :=
  (ok_readExact_of_faults_nil rfl).mpr ⟨h, by simp, rfl, rfl, by simp, rfl⟩

theorem exec_writeAll (bs input : List β) (eof : Bool) (output : List β) :
    exec (writeAll bs : ConnM β ε Unit) ⟨input, eof, output, []⟩ =
      (.ok ⟨⟩, ⟨input, eof, output ++ bs, []⟩) :=
  ok_writeAll_self rfl bs

/-! ## Programs that write nothing -/

def Quiet (m : ConnM β ε α) : Prop :=
  ∀ c, (exec m c).2.output = c.output ∧ (c.faults = [] → (exec m c).2.faults = [])

theorem quiet_pure (a : α) : Quiet (pure a : ConnM β ε α) := fun _ => ⟨rfl, id⟩

theorem quiet_fail (e : ε) : Quiet (fail e : ConnM β ε α) := fun _ => ⟨rfl, id⟩

theorem Quiet.bind (hm : Quiet m) (hf : ∀ a, Quiet (f a)) : Quiet (m >>= f) := by
  intro c
  obtain ⟨hout, hfaults⟩ := hm c
  rw [exec_bind]
  rcases hexec : exec m c with ⟨(e | a), c₁⟩
  · rw [hexec] at hout hfaults
    exact ⟨hout, hfaults⟩
  · rw [hexec] at hout hfaults
    exact ⟨(hf a c₁).1.trans hout, fun h => (hf a c₁).2 (hfaults h)⟩

theorem Quiet.context (hm : Quiet m) (e : ε) : Quiet (context m e) := by
  intro c
  obtain ⟨hout, hfaults⟩ := hm c
  rw [Conn.context, exec_tryCatch]
  rcases hexec : exec m c with ⟨((- | e') | a), c₁⟩ <;> rw [hexec] at hout hfaults <;>
    exact ⟨hout, hfaults⟩

theorem quiet_readExact (n : ℕ) (e : ε) : Quiet (readExact n e : ConnM β ε _) := by
  rintro ⟨input, eof, output, faults⟩
  unfold readExact operate
  by_cases hn : n = 0
  · simp [hn]
  · by_cases hlen : input.length < n <;> rcases faults with - | ⟨(- | f), faults⟩ <;>
      simp [hn, hlen]

/-! ## A stream that arrives in segments -/

def arriving (segs : List (List β)) (eof : Bool) (output : List β) : Conn β ε :=
  ⟨segs.flatten, eof, output, []⟩

end Conn

end SkadiCore
