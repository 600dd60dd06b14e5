import SkadiCore.Common.Bytes

/-!
# Chunked bodies

A chunked body is a sequence of chunks, each a line with the size of the data, the data and a
line end, and behind them a line with the size zero. How a line gives a size is left open.

* `exists_decodes`, `Decodes.unique`: every stream decodes to one thing.
* `decodes_complete_iff`, `decodes_cut_iff`: the first two, in terms of whole chunks.
-/

namespace SkadiCore

def crlf : Bytes := [13, 10]

def findCrlf : Bytes → Option ℕ
  | [] => none
  | b :: l => if (b :: l).take 2 = crlf then some 0 else (findCrlf l).map (· + 1)

variable {n : ℕ}

theorem findCrlf_cons_eq_some {b : Byte} {l : Bytes} (h : findCrlf (b :: l) = some n) :
    ((b :: l).take 2 = crlf ∧ n = 0) ∨
      ((b :: l).take 2 ≠ crlf ∧ ∃ m, findCrlf l = some m ∧ n = m + 1) := by
  rw [findCrlf] at h
  split_ifs at h with hcrlf
  · exact .inl ⟨hcrlf, (Option.some.inj h).symm⟩
  · obtain ⟨m, hm, rfl⟩ := Option.map_eq_some_iff.mp h
    exact .inr ⟨hcrlf, m, hm, rfl⟩

theorem two_le_of_take {l : Bytes} (h : l.take 2 = crlf) : 2 ≤ l.length := by
  have := congrArg List.length h
  rw [List.length_take] at this
  simp only [crlf, List.length_cons, List.length_nil] at this
  omega

theorem findCrlf_append {l : Bytes} (h : findCrlf l = some n) (x : Bytes) :
    findCrlf (l ++ x) = some n := by
  induction l generalizing n with
  | nil => cases h
  | cons b l ih =>
    rcases findCrlf_cons_eq_some h with ⟨hcrlf, rfl⟩ | ⟨hcrlf, m, hm, rfl⟩
    · have htake : ((b :: l) ++ x).take 2 = crlf := by
        rw [List.take_append_of_le_length (two_le_of_take hcrlf), hcrlf]
      rw [List.cons_append] at htake ⊢
      rw [findCrlf, if_pos htake]
    · have hlen : l ≠ [] := by
        rintro rfl
        cases hm
      have htake : ((b :: l) ++ x).take 2 = (b :: l).take 2 := by
        refine List.take_append_of_le_length ?_
        have := List.length_pos_of_ne_nil hlen
        rw [List.length_cons]
        omega
      rw [List.cons_append] at htake ⊢
      rw [findCrlf, htake, if_neg hcrlf, ih hm]
      rfl

theorem findCrlf_of_append {l x : Bytes} (h : findCrlf (l ++ x) = some n) (hn : n + 2 ≤ l.length) :
    findCrlf l = some n := by
  induction l generalizing n with
  | nil => simp at hn
  | cons b l ih =>
    rw [List.cons_append] at h
    have hlen : 2 ≤ (b :: l).length := by omega
    have htake : (b :: (l ++ x)).take 2 = (b :: l).take 2 := by
      rw [← List.cons_append, List.take_append_of_le_length hlen]
    rcases findCrlf_cons_eq_some h with ⟨hcrlf, rfl⟩ | ⟨hcrlf, m, hm, rfl⟩
    · rw [findCrlf, if_pos (htake ▸ hcrlf)]
    · rw [List.length_cons] at hn
      rw [findCrlf, if_neg (htake ▸ hcrlf), ih hm (by omega)]
      rfl

theorem findCrlf_split {w : Bytes} (h : findCrlf w = some n) :
    n + 2 ≤ w.length ∧ w = w.take n ++ (crlf ++ w.drop (n + 2)) := by
  induction w generalizing n with
  | nil => cases h
  | cons b w ih =>
    rcases findCrlf_cons_eq_some h with ⟨hcrlf, rfl⟩ | ⟨-, m, hm, rfl⟩
    · refine ⟨two_le_of_take hcrlf, ?_⟩
      rw [← hcrlf, List.take_zero, List.nil_append]
      exact (List.take_append_drop 2 (b :: w)).symm
    · obtain ⟨hlen, hw⟩ := ih hm
      refine ⟨by rw [List.length_cons]; omega, ?_⟩
      rw [List.take_succ_cons, List.cons_append]
      exact congrArg (b :: ·) hw

theorem findCrlf_line {line : Bytes} (h : 13 ∉ line) :
    findCrlf (line ++ crlf) = some line.length := by
  induction line with
  | nil => rfl
  | cons b line ih =>
    obtain ⟨hb, hline⟩ : 13 ≠ b ∧ 13 ∉ line := by simpa using h
    have hne : (b :: (line ++ crlf)).take 2 ≠ crlf := by
      intro htake
      have := congrArg List.head? htake
      rw [List.take_succ_cons, List.head?_cons] at this
      exact hb (Option.some.inj this).symm
    rw [List.cons_append, findCrlf, if_neg hne, ih hline]
    rfl

/-! ## Bodies -/

structure ChunkFormat (ε : Type*) where
  size : Bytes → Except ε ℕ
  eofInData : ε
  eofBehindData : ε
  noCrlf : ε

inductive Verdict (ε : Type*)
  | complete
  | cut
  | failed (e : ε)

inductive ChunkPhase
  | line
  | data (n : ℕ)
  | behind

variable {ε : Type*} (F : ChunkFormat ε)

/-- `w` is the chunks `cs`, then `tail`. -/
inductive Chunks : Bytes → List Bytes → Bytes → Prop
  | nil (w : Bytes) : Chunks w [] w
  | cons {line data w tail : Bytes} {cs : List Bytes} :
      findCrlf (line ++ crlf) = some line.length → F.size line = .ok data.length → data ≠ [] →
      Chunks w cs tail → Chunks (line ++ (crlf ++ (data ++ (crlf ++ w)))) (data :: cs) tail

/-- The size line of the last chunk. -/
def LastLine (tail : Bytes) : Prop :=
  ∃ n, findCrlf tail = some n ∧ F.size (tail.take n) = .ok 0

/-- Whole chunks, then the line of the last chunk. -/
def Terminated (w : Bytes) : Prop := ∃ cs tail, Chunks F w cs tail ∧ LastLine F tail

/-- Whole chunks, then a line that is not ended. -/
def CutOff (w : Bytes) : Prop := ∃ cs tail, Chunks F w cs tail ∧ findCrlf tail = none

inductive Decodes : ChunkPhase → Bytes → Bytes → Verdict ε → Prop
  | cut {w : Bytes} : findCrlf w = none → Decodes .line w [] .cut
  | badSize {w : Bytes} {n : ℕ} {e : ε} : findCrlf w = some n → F.size (w.take n) = .error e →
      Decodes .line w [] (.failed e)
  | last {w : Bytes} {n : ℕ} : findCrlf w = some n → F.size (w.take n) = .ok 0 →
      Decodes .line w [] .complete
  | size {w data : Bytes} {n size : ℕ} {v : Verdict ε} : findCrlf w = some n →
      F.size (w.take n) = .ok size → 0 < size →
      Decodes (.data size) (w.drop (n + 2)) data v → Decodes .line w data v
  | filled {w data : Bytes} {v : Verdict ε} : Decodes .behind w data v →
      Decodes (.data 0) w data v
  | byte {w data : Bytes} {n : ℕ} {v : Verdict ε} {b : Byte} : Decodes (.data n) w data v →
      Decodes (.data (n + 1)) (b :: w) (b :: data) v
  | eofInData {n : ℕ} : Decodes (.data (n + 1)) [] [] (.failed F.eofInData)
  | eofBehindData {w : Bytes} : w.length < 2 → Decodes .behind w [] (.failed F.eofBehindData)
  | noCrlf {w : Bytes} : 2 ≤ w.length → w.take 2 ≠ crlf → Decodes .behind w [] (.failed F.noCrlf)
  | crlf {w data : Bytes} {v : Verdict ε} : Decodes .line w data v →
      Decodes .behind (crlf ++ w) data v

namespace Decodes

variable {F} {w data data' l : Bytes} {v v' : Verdict ε} {n : ℕ} {p : ChunkPhase}

theorem line_iff_of_some {size : ℕ} (hn : findCrlf w = some n)
    (hsize : F.size (w.take n) = .ok size) (hpos : 0 < size) :
    Decodes F .line w data v ↔ Decodes F (.data size) (w.drop (n + 2)) data v := by
  refine ⟨fun h => ?_, .size hn hsize hpos⟩
  cases h with
  | cut h => simp [hn] at h
  | badSize h he =>
    cases hn.symm.trans h
    simp [hsize] at he
  | last h hz =>
    cases hn.symm.trans h
    cases hsize.symm.trans hz
    exact absurd hpos (lt_irrefl 0)
  | size h hs _ hd =>
    cases hn.symm.trans h
    cases hsize.symm.trans hs
    exact hd

theorem of_last (hn : findCrlf w = some n) (hsize : F.size (w.take n) = .ok 0)
    (h : Decodes F .line w data v) : data = [] ∧ v = .complete := by
  cases h with
  | cut h => simp [hn] at h
  | badSize h he =>
    cases hn.symm.trans h
    simp [hsize] at he
  | last => exact ⟨rfl, rfl⟩
  | size h hs hpos _ =>
    cases hn.symm.trans h
    cases hsize.symm.trans hs
    exact absurd hpos (lt_irrefl 0)

theorem of_badSize {e : ε} (hn : findCrlf w = some n) (hsize : F.size (w.take n) = .error e)
    (h : Decodes F .line w data v) : data = [] ∧ v = .failed e := by
  cases h with
  | cut h => simp [hn] at h
  | badSize h he =>
    cases hn.symm.trans h
    cases hsize.symm.trans he
    exact ⟨rfl, rfl⟩
  | last h hz =>
    cases hn.symm.trans h
    simp [hsize] at hz
  | size h hs =>
    cases hn.symm.trans h
    simp [hsize] at hs

theorem of_cut (hn : findCrlf w = none) (h : Decodes F .line w data v) :
    data = [] ∧ v = .cut := by
  cases h with
  | cut => exact ⟨rfl, rfl⟩
  | badSize h | last h | size h => simp [hn] at h

theorem filled_iff : Decodes F (.data 0) w data v ↔ Decodes F .behind w data v := by
  refine ⟨fun h => ?_, .filled⟩
  cases h with
  | filled h => exact h

theorem crlf_iff : Decodes F .behind (SkadiCore.crlf ++ w) data v ↔ Decodes F .line w data v := by
  refine ⟨fun h => ?_, .crlf⟩
  generalize hx : SkadiCore.crlf ++ w = x at h
  cases h with
  | eofBehindData hlen =>
    rw [← hx] at hlen
    simp [SkadiCore.crlf] at hlen
  | noCrlf _ hne =>
    rw [← hx] at hne
    exact absurd rfl hne
  | crlf h =>
    cases List.append_cancel_left hx
    exact h

theorem of_short (hlen : w.length < 2) (h : Decodes F .behind w data v) :
    data = [] ∧ v = .failed F.eofBehindData := by
  cases h with
  | eofBehindData => exact ⟨rfl, rfl⟩
  | noCrlf h => omega
  | crlf => simp [SkadiCore.crlf] at hlen

theorem of_noCrlf (hlen : 2 ≤ w.length) (hne : w.take 2 ≠ SkadiCore.crlf)
    (h : Decodes F .behind w data v) : data = [] ∧ v = .failed F.noCrlf := by
  cases h with
  | eofBehindData h => omega
  | noCrlf => exact ⟨rfl, rfl⟩
  | crlf => exact absurd rfl hne

theorem of_eof (h : Decodes F (.data (n + 1)) [] data v) : data = [] ∧ v = .failed F.eofInData := by
  cases h with
  | eofInData => exact ⟨rfl, rfl⟩

theorem take_data (h : Decodes F (.data (l.length + n)) (l ++ w) data v) :
    ∃ data', data = l ++ data' ∧ Decodes F (.data n) w data' v := by
  induction l generalizing data with
  | nil =>
    rw [List.length_nil, Nat.zero_add] at h
    exact ⟨data, rfl, h⟩
  | cons b l ih =>
    have hlen : (b :: l).length + n = l.length + n + 1 := by rw [List.length_cons]; omega
    rw [hlen, List.cons_append] at h
    cases h with
    | byte h =>
      obtain ⟨data', rfl, hdata⟩ := ih h
      exact ⟨data', rfl, hdata⟩

theorem put_data (h : Decodes F (.data n) w data v) :
    Decodes F (.data (l.length + n)) (l ++ w) (l ++ data) v := by
  induction l with
  | nil =>
    rw [List.length_nil, Nat.zero_add]
    exact h
  | cons b l ih =>
    have hlen : (b :: l).length + n = l.length + n + 1 := by rw [List.length_cons]; omega
    rw [hlen]
    exact .byte ih

/-! ## Every stream decodes to one thing -/

theorem unique (h : Decodes F p w data v) (h' : Decodes F p w data' v') :
    data = data' ∧ v = v' := by
  induction h generalizing data' v' with
  | cut hn =>
    obtain ⟨rfl, rfl⟩ := h'.of_cut hn
    exact ⟨rfl, rfl⟩
  | badSize hn he =>
    obtain ⟨rfl, rfl⟩ := h'.of_badSize hn he
    exact ⟨rfl, rfl⟩
  | last hn hz =>
    obtain ⟨rfl, rfl⟩ := h'.of_last hn hz
    exact ⟨rfl, rfl⟩
  | size hn hs hpos _ ih => exact ih ((line_iff_of_some hn hs hpos).mp h')
  | filled _ ih => exact ih (filled_iff.mp h')
  | byte _ ih =>
    cases h' with
    | byte h' =>
      obtain ⟨rfl, rfl⟩ := ih h'
      exact ⟨rfl, rfl⟩
  | eofInData =>
    obtain ⟨rfl, rfl⟩ := h'.of_eof
    exact ⟨rfl, rfl⟩
  | eofBehindData hlen =>
    obtain ⟨rfl, rfl⟩ := h'.of_short hlen
    exact ⟨rfl, rfl⟩
  | noCrlf hlen hne =>
    obtain ⟨rfl, rfl⟩ := h'.of_noCrlf hlen hne
    exact ⟨rfl, rfl⟩
  | crlf _ ih => exact ih (crlf_iff.mp h')

end Decodes

variable {F}

theorem exists_decodes_behind {w : Bytes}
    (hline : ∀ w' : Bytes, w'.length < w.length → ∃ data v, Decodes F .line w' data v) :
    ∃ data v, Decodes F .behind w data v := by
  by_cases hlen : w.length < 2
  · exact ⟨_, _, .eofBehindData hlen⟩
  by_cases hne : w.take 2 = crlf
  · have hdrop : (w.drop 2).length < w.length := by
      rw [List.length_drop]
      omega
    obtain ⟨data, v, h⟩ := hline _ hdrop
    refine ⟨data, v, ?_⟩
    rw [← List.take_append_drop 2 w, hne]
    exact .crlf h
  · exact ⟨_, _, .noCrlf (not_lt.mp hlen) hne⟩

theorem exists_decodes_data {w : Bytes} (n : ℕ)
    (hline : ∀ w' : Bytes, w'.length < w.length → ∃ data v, Decodes F .line w' data v) :
    ∃ data v, Decodes F (.data n) w data v := by
  induction n generalizing w with
  | zero =>
    obtain ⟨data, v, h⟩ := exists_decodes_behind hline
    exact ⟨data, v, .filled h⟩
  | succ n ih =>
    cases w with
    | nil => exact ⟨_, _, .eofInData⟩
    | cons b w =>
      obtain ⟨data, v, h⟩ := ih fun w' hw' => hline w' (hw'.trans (Nat.lt_succ_self _))
      exact ⟨_, _, .byte h⟩

theorem exists_decodes (w : Bytes) : ∃ data v, Decodes F .line w data v := by
  induction hw : w.length using Nat.strong_induction_on generalizing w with
  | _ k ih =>
    subst hw
    cases hn : findCrlf w with
    | none => exact ⟨_, _, .cut hn⟩
    | some n =>
      cases hsize : F.size (w.take n) with
      | error e => exact ⟨_, _, .badSize hn hsize⟩
      | ok size =>
        rcases Nat.eq_zero_or_pos size with rfl | hpos
        · exact ⟨_, _, .last hn hsize⟩
        · obtain ⟨hlen, -⟩ := findCrlf_split hn
          have hshort : (w.drop (n + 2)).length < w.length := by
            rw [List.length_drop]
            omega
          obtain ⟨data, v, h⟩ := exists_decodes_data size
            fun w' hw' => ih _ (hw'.trans hshort) w' rfl
          exact ⟨data, v, .size hn hsize hpos h⟩

/-! ## Whole chunks -/

variable {v : Verdict ε}

theorem Chunks.decodes {w tail data : Bytes} {cs : List Bytes} (h : Chunks F w cs tail)
    (htail : Decodes F .line tail data v) : Decodes F .line w (cs.flatten ++ data) v := by
  induction h with
  | nil => exact htail
  | @cons line chunk w tail cs hline hsize hne _ ih =>
    have hfind : findCrlf (line ++ (crlf ++ (chunk ++ (crlf ++ w)))) = some line.length := by
      rw [← List.append_assoc]
      exact findCrlf_append hline _
    have hdrop : (line ++ (crlf ++ (chunk ++ (crlf ++ w)))).drop (line.length + 2) =
        chunk ++ (crlf ++ w) := by
      rw [List.drop_length_add_append]
      rfl
    refine .size hfind (by rw [List.take_left]; exact hsize) (List.length_pos_of_ne_nil hne) ?_
    rw [hdrop, List.flatten_cons, List.append_assoc]
    exact Decodes.put_data (n := 0) (.filled (.crlf (ih htail)))

variable {w data : Bytes}

theorem Decodes.exists_chunk {n : ℕ} (hv : ∀ e, v ≠ .failed e) (h : Decodes F (.data n) w data v) :
    ∃ chunk w' data', chunk.length = n ∧
      w = chunk ++ (SkadiCore.crlf ++ w') ∧ data = chunk ++ data' ∧ Decodes F .line w' data' v := by
  induction n generalizing w data with
  | zero =>
    have hbehind := filled_iff.mp h
    cases hbehind with
    | eofBehindData => exact absurd rfl (hv _)
    | noCrlf => exact absurd rfl (hv _)
    | crlf h => exact ⟨[], _, _, rfl, rfl, rfl, h⟩
  | succ n ih =>
    cases h with
    | eofInData => exact absurd rfl (hv _)
    | @byte w data _ _ b h =>
      obtain ⟨chunk, w', data', rfl, rfl, rfl, hline⟩ := ih h
      exact ⟨b :: chunk, w', data', rfl, rfl, rfl, hline⟩

theorem Decodes.exists_chunks (hv : ∀ e, v ≠ .failed e) (h : Decodes F .line w data v) :
    ∃ cs tail, Chunks F w cs tail ∧ data = cs.flatten ∧
      ((v = .complete ∧ LastLine F tail) ∨ (v = .cut ∧ findCrlf tail = none)) := by
  induction hw : w.length using Nat.strong_induction_on generalizing w data with
  | _ k ih =>
    subst hw
    cases h with
    | cut hn => exact ⟨[], w, .nil w, rfl, .inr ⟨rfl, hn⟩⟩
    | badSize => exact absurd rfl (hv _)
    | last hn hz => exact ⟨[], w, .nil w, rfl, .inl ⟨rfl, _, hn, hz⟩⟩
    | @size _ _ n size _ hn hs hpos hd =>
      obtain ⟨hlen, hsplit⟩ := findCrlf_split hn
      obtain ⟨chunk, w', data', rfl, hw', rfl, hline⟩ := Decodes.exists_chunk hv hd
      have hshort : w'.length < w.length := by
        have := congrArg List.length hw'
        simp only [List.length_drop, List.length_append, SkadiCore.crlf, List.length_cons,
          List.length_nil] at this
        omega
      obtain ⟨cs, tail, hchunks, rfl, htail⟩ := ih _ hshort hline rfl
      refine ⟨chunk :: cs, tail, ?_, rfl, htail⟩
      have htake : (w.take n).length = n := by
        rw [List.length_take]
        omega
      have hfind : findCrlf (w.take n ++ SkadiCore.crlf) = some (w.take n).length := by
        rw [htake]
        refine findCrlf_of_append (x := w.drop (n + 2)) ?_ ?_
        · rw [List.append_assoc, ← hsplit, hn]
        · rw [List.length_append, htake]
          rfl
      rw [hsplit, hw']
      exact .cons hfind hs (List.ne_nil_of_length_pos hpos) hchunks

theorem decodes_complete_iff : Decodes F .line w data .complete ↔
    ∃ cs tail, Chunks F w cs tail ∧ LastLine F tail ∧ data = cs.flatten := by
  constructor
  · intro h
    obtain ⟨cs, tail, hchunks, rfl, ⟨-, hlast⟩ | ⟨hv, -⟩⟩ := h.exists_chunks fun _ hv => by cases hv
    · exact ⟨cs, tail, hchunks, hlast, rfl⟩
    · cases hv
  · rintro ⟨cs, tail, hchunks, ⟨n, hn, hz⟩, rfl⟩
    simpa using hchunks.decodes (.last hn hz)

theorem decodes_cut_iff : Decodes F .line w data .cut ↔
    ∃ cs tail, Chunks F w cs tail ∧ findCrlf tail = none ∧ data = cs.flatten := by
  constructor
  · intro h
    obtain ⟨cs, tail, hchunks, rfl, ⟨hv, -⟩ | ⟨-, hcut⟩⟩ := h.exists_chunks fun _ hv => by cases hv
    · cases hv
    · exact ⟨cs, tail, hchunks, hcut, rfl⟩
  · rintro ⟨cs, tail, hchunks, hn, rfl⟩
    simpa using hchunks.decodes (.cut hn)

theorem not_terminated_of_cutOff {w : Bytes} (h : CutOff F w) : ¬ Terminated F w := by
  rintro ⟨cs', tail', hchunks', hlast⟩
  obtain ⟨cs, tail, hchunks, hcut⟩ := h
  have hcomplete := decodes_complete_iff.mpr ⟨cs', tail', hchunks', hlast, rfl⟩
  have hcutoff := decodes_cut_iff.mpr ⟨cs, tail, hchunks, hcut, rfl⟩
  cases (hcomplete.unique hcutoff).2

end SkadiCore
