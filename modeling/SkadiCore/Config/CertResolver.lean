import SkadiCore.Config.Start

/-!
# The certificate that a client is shown

Model of `SniCertResolver::resolve` (`crates/skadi-transport/src/tls.rs`, lines 139-149), over
the table that `build_resolver` makes of the configuration.

* `insertNames_lookup`, `insertEntries_lookup`: what the table holds behind the names of an entry,
  and behind all entries. No name is overwritten.
* `resolve_configured`: a client that sends a configured name, in any letter case, gets the
  certificate of the entry that lists it; any other client gets the default one.
-/

namespace SkadiCore.Config

open Reality (normalName)

def TlsTransport.resolve (t : TlsTransport) (serverName : Option String) : Option CertifiedKey :=
  match serverName with
  | none => t.default
  | some name =>
    match t.byName.lookup (toAsciiLowercase name) with
    | some ck => some ck
    | none => t.default

def TlsSniCert.paths (entry : TlsSniCert) : TlsCertPaths := ⟨entry.certPath, entry.keyPath⟩

def TlsSniCert.normalNames (entry : TlsSniCert) : List String := entry.serverNames.map normalName

variable {env : Env} {byName byName' : List (String × CertifiedKey)}

theorem eq_of_normalizeServerName {name normalized : String}
    (h : normalizeServerName name = .ok normalized) : normalized = normalName name := by
  cases hempty : (trim name).isEmpty with
  | true => simp [normalizeServerName, hempty] at h
  | false => exact ((normalizeServerName_eq_ok hempty).mp h).2.symm

theorem lookup_eq_none_of_not_mem {k : String} (h : k ∉ byName.map Prod.fst) :
    byName.lookup k = none := by
  refine List.lookup_eq_none_iff.mpr fun p hp => ?_
  have hne : k ≠ p.1 := fun heq => h (heq ▸ List.mem_map_of_mem hp)
  simpa using hne

theorem insertNames_lookup {ck : CertifiedKey} {names : List String}
    (h : insertNames ck byName names = .ok byName') (k : String) :
    (k ∈ names.map normalName → byName.lookup k = none ∧ byName'.lookup k = some ck) ∧
      (k ∉ names.map normalName → byName'.lookup k = byName.lookup k) := by
  induction names generalizing byName with
  | nil =>
    cases h
    simp
  | cons name names ih =>
    simp only [insertNames, bind_eq_ok, bailIf_eq_ok] at h
    obtain ⟨normalized, hnormalized, -, hnew, h⟩ := h
    have hname := eq_of_normalizeServerName hnormalized
    subst hname
    have hnone := lookup_eq_none_of_not_mem (of_decide_eq_false hnew)
    obtain ⟨hmem, hother⟩ := ih h
    rw [List.lookup_cons] at hmem hother
    simp only [List.map_cons, List.mem_cons, not_or]
    by_cases hk : k = normalName name
    · subst hk
      refine ⟨fun _ => ⟨hnone, ?_⟩, fun hne => absurd rfl hne.1⟩
      by_cases hlater : normalName name ∈ names.map normalName
      · exact (hmem hlater).2
      · simpa using hother hlater
    · simp only [beq_eq_false_iff_ne.mpr hk] at hmem hother
      simp only [hk, false_or, not_false_eq_true, true_and]
      exact ⟨hmem, hother⟩

theorem insertEntries_lookup {entries : List TlsSniCert}
    (h : insertEntries env byName entries = .ok byName') (k : String) :
    (∀ ck, byName.lookup k = some ck → byName'.lookup k = some ck) ∧
      (∀ entry ∈ entries, k ∈ entry.normalNames →
        ∃ ck, loadCertifiedKey env entry.paths = .ok ck ∧ byName'.lookup k = some ck) ∧
      ((∀ entry ∈ entries, k ∉ entry.normalNames) → byName'.lookup k = byName.lookup k) := by
  induction entries generalizing byName with
  | nil =>
    cases h
    simp
  | cons entry entries ih =>
    simp only [insertEntries, bind_eq_ok] at h
    obtain ⟨-, -, ck, hck, byName₁, hnames, h⟩ := h
    obtain ⟨hkeep, hmem, hother⟩ := ih h
    obtain ⟨hnew, hold⟩ := insertNames_lookup hnames k
    refine ⟨fun ck' hck' => ?_, ?_, fun hall => ?_⟩
    · by_cases hk : k ∈ entry.serverNames.map normalName
      · rw [(hnew hk).1] at hck'
        cases hck'
      · exact hkeep ck' ((hold hk).trans hck')
    · rintro e he hk
      rcases List.mem_cons.mp he with rfl | he
      · exact ⟨ck, hck, hkeep ck (hnew hk).2⟩
      · exact hmem e he hk
    · obtain ⟨hfirst, hall⟩ := List.forall_mem_cons.mp hall
      rw [hother hall, hold hfirst]

/-- A client that sends a configured name, in any letter case, is shown the certificate of the
    entry that lists the name. Every other client, also one that sends no name, is shown the
    default certificate. -/
theorem resolve_configured {config : TlsServerConfig} {t : TlsTransport}
    (h : TlsTransport.new env config = .ok t) :
    (∀ entry ∈ config.sniCerts, ∀ name ∈ entry.serverNames, ∀ sent,
      toAsciiLowercase sent = normalName name →
        ∃ ck, loadCertifiedKey env entry.paths = .ok ck ∧ t.resolve (some sent) = some ck) ∧
    ∀ sent : Option String, (∀ s ∈ sent, ∀ entry ∈ config.sniCerts, ∀ name ∈ entry.serverNames,
      toAsciiLowercase s ≠ normalName name) →
        config.default.mapM (loadCertifiedKey env) = .ok (t.resolve sent) := by
  simp only [TlsTransport.new, bind_eq_ok] at h
  obtain ⟨-, -, default, hdefault, byName, hentries, h⟩ := h
  cases h
  constructor
  · intro entry hentry name hname sent hsent
    have hmem : normalName name ∈ entry.normalNames := List.mem_map_of_mem hname
    obtain ⟨ck, hck, hlookup⟩ := (insertEntries_lookup hentries _).2.1 entry hentry hmem
    exact ⟨ck, hck, by simp [TlsTransport.resolve, hsent, hlookup]⟩
  · intro sent hsent
    rw [hdefault]
    cases sent with
    | none => rfl
    | some s =>
      have hnone : byName.lookup (toAsciiLowercase s) = none := by
        refine (insertEntries_lookup hentries _).2.2 fun entry hentry hmem => ?_
        obtain ⟨name, hname, heq⟩ := List.mem_map.mp hmem
        exact hsent s rfl entry hentry name hname heq.symm
      simp [TlsTransport.resolve, hnone]

def namedEnv : Env :=
  { sampleEnv with
    read := fun path => .ok (asBytes path)
    pemCerts := fun data => .ok [data]
    pemKey := .ok
    signingKey := fun _ => true }

def twoCerts : TlsServerConfig :=
  ⟨some ⟨"d", "k"⟩, [⟨["A.example", "b.example "], "ab", "k"⟩], [], .classic⟩

theorem resolve_configured_twoCerts :
    ∃ t, TlsTransport.new namedEnv twoCerts = .ok t ∧
      (∃ ck, loadCertifiedKey namedEnv ⟨"ab", "k"⟩ = .ok ck ∧
        t.resolve (some "B.Example") = some ck) ∧
      twoCerts.default.mapM (loadCertifiedKey namedEnv) = .ok (t.resolve (some "c.example")) := by
  obtain ⟨t, ht⟩ : IsOk (TlsTransport.new namedEnv twoCerts) := ⟨_, rfl⟩
  refine ⟨t, ht, ?_, (resolve_configured ht).2 (some "c.example") ?_⟩
  · exact (resolve_configured ht).1 ⟨["A.example", "b.example "], "ab", "k"⟩ (.head _)
      "b.example " (.tail _ (.head _)) "B.Example" (by decide +kernel)
  · intro s hs entry hentry name hname
    cases hs
    cases List.mem_singleton.mp hentry
    have hnames : name = "A.example" ∨ name = "b.example " := by simpa using hname
    rcases hnames with rfl | rfl <;> decide +kernel

end SkadiCore.Config
