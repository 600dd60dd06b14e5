import SkadiCore.Core.Redact

/-!
# What redaction leaves of a text

* `redactBearerTokens_eq_iff`: the function returns `redacted` exactly if every character
  outside the tokens is ASCII.

**Defect.** The mark ends with a bracket, which is a boundary of tokens: of `[REDACTED]`
only `[REDACTED` is read as a token again, so that every redaction adds a bracket
(`count_lt_of_hasKey`).
-/

namespace SkadiCore

def redacted (s : String) : String :=
  .ofList (bearer.replace (fun c => [c]) REDACTED.toList s.toList)

theorem two_le_length_mangle {c : Char} (h : ¬ c.toNat < 128) : 2 ≤ (mangle c).length := by
  have h' : ¬ c.val.toNat ≤ 127 := by
    have : c.val.toNat = c.toNat := rfl
    omega
  rw [mangle, List.length_map, String.utf8EncodeChar]
  simp only [h', if_false]
  split_ifs <;> simp

theorem keyword_of_run_mem {cs keyword tok : List Char}
    (h : .run keyword tok ∈ bearer.pieces cs) :
    keyword.map Char.toLower = "bearer ".toList ∧ keyword.flatMap mangle = keyword := by
  obtain ⟨⟨l, hkey, rfl⟩, -⟩ := KeyedRuns.exists_of_run_mem h
  exact ⟨eq_of_beq hkey, flatMap_mangle_ascii (ascii_of_key hkey)⟩

/-! ## The characters outside the tokens -/

theorem length_render_le {cs : List Char} {p : Piece Char} (h : p ∈ bearer.pieces cs) :
    (p.render (fun c => [c]) REDACTED.toList).length ≤
      (p.render mangle REDACTED.toList).length := by
  cases p with
  | kept c =>
    by_cases hc : c.toNat < 128
    · simp [Piece.render, mangle_ascii hc]
    · have := two_le_length_mangle hc
      simp only [Piece.render, List.length_singleton]
      omega
  | run keyword tok => simp [Piece.render, (keyword_of_run_mem h).2]

theorem redactBearerTokens_eq_iff (s : String) : redactBearerTokens s = redacted s ↔
    ∀ c, .kept c ∈ bearer.pieces s.toList → c.toNat < 128 := by
  rw [← String.toList_inj, redactBearerTokens_toList, redacted, String.toList_ofList]
  constructor
  · intro h c hc
    by_contra hascii
    have hlt : (((bearer.pieces s.toList).map fun p =>
          (p.render (fun c => [c]) REDACTED.toList).length).sum) <
        ((bearer.pieces s.toList).map fun p => (p.render mangle REDACTED.toList).length).sum := by
      refine List.sum_lt_sum _ _ (fun p hp => length_render_le hp) ⟨_, hc, ?_⟩
      have := two_le_length_mangle hascii
      simp only [Piece.render, List.length_singleton]
      omega
    have hlen := congrArg List.length h
    simp only [KeyedRuns.replace, List.length_flatMap] at hlen
    omega
  · intro h
    refine List.flatMap_congr fun p hp => ?_
    cases p with
    | kept c => exact mangle_ascii (h c hp)
    | run keyword tok => simp [Piece.render, (keyword_of_run_mem hp).2]

/-! ## Redacting twice -/

variable {s : String}

theorem hasKey_redactBearerTokens (h : bearer.HasKey s.toList) :
    bearer.HasKey (redactBearerTokens s).toList := by
  obtain ⟨p, hp, hrun⟩ := KeyedRuns.exists_run_of_hasKey h
  cases p with
  | kept c => cases hrun
  | run keyword tok =>
    obtain ⟨hlower, hkept⟩ := keyword_of_run_mem hp
    have hlen : keyword.length = 7 := by
      have := congrArg List.length hlower
      rw [List.length_map] at this
      rw [this]
      decide +kernel
    obtain ⟨before, behind, hsplit⟩ := List.append_of_mem hp
    rw [redactBearerTokens_toList, KeyedRuns.replace, hsplit]
    simp only [List.flatMap_append, List.flatMap_cons, Piece.render, hkept, List.append_assoc]
    refine ⟨_, _, rfl, ?_⟩
    show (((keyword ++ _).take 7).map Char.toLower == "bearer ".toList) = true
    rw [← hlen, List.take_left, hlower, beq_self_eq_true]

theorem count_lt_of_hasKey {cs : List Char} (h : bearer.HasKey cs) :
    cs.count ']' < (bearer.replace mangle REDACTED.toList cs).count ']' := by
  have hmark : REDACTED.toList.count ']' = 1 := by decide +kernel
  have htoken : ∀ {keyword tok}, .run keyword tok ∈ bearer.pieces cs → tok.count ']' = 0 := by
    intro keyword tok hp
    refine List.count_eq_zero.mpr fun hmem => ?_
    have := (KeyedRuns.exists_of_run_mem hp).2 _ hmem
    exact absurd this (by decide +kernel)
  have hle : ∀ p ∈ bearer.pieces cs,
      p.text.count ']' ≤ (p.render mangle REDACTED.toList).count ']' := by
    intro p hp
    cases p with
    | kept c =>
      by_cases hc : c.toNat < 128
      · simp [Piece.render, Piece.text, mangle_ascii hc]
      · have hne : ']' ∉ [c] := by
          rintro hmem
          rw [← List.mem_singleton.mp hmem] at hc
          exact hc (by decide)
        rw [Piece.text, List.count_eq_zero.mpr hne]
        exact Nat.zero_le _
    | run keyword tok =>
      simp only [Piece.render, Piece.text, (keyword_of_run_mem hp).2, List.count_append,
        htoken hp, hmark]
      omega
  obtain ⟨p, hp, hrun⟩ := KeyedRuns.exists_run_of_hasKey h
  have hlt : p.text.count ']' < (p.render mangle REDACTED.toList).count ']' := by
    cases p with
    | kept c => cases hrun
    | run keyword tok =>
      simp only [Piece.render, Piece.text, (keyword_of_run_mem hp).2, List.count_append,
        htoken hp, hmark]
      omega
  have hsum := List.sum_lt_sum _ _ hle ⟨p, hp, hlt⟩
  nth_rewrite 1 [← KeyedRuns.flatMap_text_pieces (R := bearer) cs]
  rw [KeyedRuns.replace, List.count_flatMap, List.count_flatMap]
  exact hsum

theorem not_hasKey_of_idempotent
    (h : redactBearerTokens (redactBearerTokens s) = redactBearerTokens s) :
    ¬ bearer.HasKey s.toList := by
  intro hkey
  have hlt := count_lt_of_hasKey (hasKey_redactBearerTokens hkey)
  rw [← redactBearerTokens_toList, h] at hlt
  exact lt_irrefl _ hlt

/-! ## Nothing but tokens -/

/-- The function replaces the tokens of the text and nothing else, leaves it as it is if there
    is no keyword, and changes nothing the second time. -/
structure RedactsOnlyTokens (s : String) : Prop where
  tokens : redactBearerTokens s = redacted s
  plain : ¬ bearer.HasKey s.toList → redactBearerTokens s = s
  idempotent : redactBearerTokens (redactBearerTokens s) = redactBearerTokens s

theorem redactBearerTokens_of_plain (hascii : ∀ c ∈ s.toList, c.toNat < 128)
    (hkey : ¬ bearer.HasKey s.toList) : redactBearerTokens s = s := by
  rw [← String.toList_inj, redactBearerTokens_toList, KeyedRuns.replace_of_no_key hkey,
    flatMap_mangle_ascii hascii]

/-- Only tokens are redacted, and that once for all, exactly in ASCII texts without the keyword. -/
theorem redactsOnlyTokens_iff (s : String) : RedactsOnlyTokens s ↔
    (∀ c ∈ s.toList, c.toNat < 128) ∧ ¬ bearer.HasKey s.toList := by
  constructor
  · intro h
    have hkey := not_hasKey_of_idempotent h.idempotent
    refine ⟨fun c hc => ?_, hkey⟩
    apply (redactBearerTokens_eq_iff s).mp h.tokens
    rw [KeyedRuns.pieces_of_no_key hkey]
    exact List.mem_map_of_mem hc
  · rintro ⟨hascii, hkey⟩
    have hplain := redactBearerTokens_of_plain hascii hkey
    refine ⟨?_, fun _ => hplain, by rw [hplain, hplain]⟩
    rw [redactBearerTokens_eq_iff, KeyedRuns.pieces_of_no_key hkey]
    intro c hc
    obtain ⟨d, hd, heq⟩ := List.mem_map.mp hc
    cases heq
    exact hascii _ hd

theorem text_changed :
    redactBearerTokens "Ж" = "Ð\u0096" ∧ redacted "Ж" = "Ж" ∧
    redactBearerTokens "bearer x" = "bearer [REDACTED]" ∧
    redactBearerTokens (redactBearerTokens "bearer x") = "bearer [REDACTED]]" ∧
    ¬ RedactsOnlyTokens "Ж" ∧ ¬ RedactsOnlyTokens "bearer x" := by
  have hletter : redactBearerTokens "Ж" = "Ð\u0096" := by decide +kernel
  have hredacted : redacted "Ж" = "Ж" := by decide +kernel
  have honce : redactBearerTokens "bearer x" = "bearer [REDACTED]" := by decide +kernel
  have htwice : redactBearerTokens "bearer [REDACTED]" = "bearer [REDACTED]]" := by decide +kernel
  refine ⟨hletter, hredacted, honce, by rw [honce, htwice], fun h => ?_, fun h => ?_⟩
  · have := h.tokens
    rw [hletter, hredacted] at this
    exact absurd this (by decide)
  · have := h.idempotent
    rw [honce, htwice] at this
    exact absurd this (by decide)

end SkadiCore
