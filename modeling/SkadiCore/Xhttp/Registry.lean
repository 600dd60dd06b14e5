import SkadiCore.Xhttp.Server

/-!
# How long a session stays in the registry

`XhttpSessionManager` (`crates/skadi-transport/src/xhttp/session.rs`, lines 86-110) is filled
by `get_or_create`, which `handle_stream_up` calls before it tests anything and
`handle_packet_up` for each packet. Only the task of a stream-up `POST` removes an entry, at
the end of its body.
-/

namespace SkadiCore.Xhttp

def Io.heldId (io : Io) : Option String :=
  match io.source with
  | .upload sid _ => if io.held then some sid else none
  | .body => none

namespace Sessions

def registered (r : Sessions) (sid : String) : Bool := (r.registry.lookup sid).isSome

def posting (r : Sessions) (sid : String) : Bool :=
  r.posts.any fun post => decide (post.sid = sid) && decide (post.phase ≠ .ended)

def reading (r : Sessions) (sid : String) : Bool :=
  r.ios.any fun io => decide (io.heldId = some sid)

def inProgress (r : Sessions) : List String :=
  (r.posts.filter fun post => decide (post.phase ≠ .ended)).map Post.sid ++
    r.ios.filterMap Io.heldId

theorem mem_inProgress {r : Sessions} {sid : String} :
    sid ∈ r.inProgress ↔ r.posting sid = true ∨ r.reading sid = true := by
  simp only [inProgress, posting, reading, List.mem_append, List.mem_map, List.mem_filter,
    List.mem_filterMap, List.any_eq_true, Bool.and_eq_true, decide_eq_true_eq]
  refine or_congr (exists_congr fun post => ?_) Iff.rfl
  tauto

end Sessions

namespace XhttpServer

def inProgress (s : XhttpServer) : List String :=
  s.reg.inProgress ++ s.packets.filterMap (·.map Packet.sid)

/-- The step leaves no entry that nobody takes down. A request for an id that is not
    registered is a `POST` that is accepted, or a `GET` whose `XhttpIo` is handed over; a
    packet comes while its id is registered, or is refused; and the `XhttpIo` of a `GET` is
    not dropped while its id is registered without a `POST`. -/
def tidy (config : XhttpConfig) (s : XhttpServer) : XhttpAct → Bool
  | .request c req _ =>
    match route config req with
    | .streamUp sid =>
      s.reg.registered sid || (req.method = .post && config.mode.allowsStreamUp) ||
        (req.method = .get && (config.mode.allowsStreamUp || config.mode.allowsPacketUp) &&
          s.canReport c)
    | _ => true
  | .packetBody p chunks failed =>
    match s.packets[p]? with
    | some (some packet) =>
      s.reg.registered packet.sid ||
        !(readBodyLimited DEFAULT_MAX_POST_BYTES failed [] chunks).isOk
    | _ => true
  | .dropIo i =>
    match s.reg.ios[i]? with
    | some io =>
      match io.source with
      | .upload sid _ => !s.reg.registered sid || s.reg.posting sid
      | .body => true
    | none => true
  | _ => true

/-- `tidy` as a condition on steps. -/
def Tidy (config : XhttpConfig) (s : XhttpServer) (a : XhttpAct) : Prop := s.tidy config a = true

end XhttpServer

namespace Sessions

variable {r r' : Sessions} {k i n ref : ℕ} {sid sid' : String} {post post' : Post} {io io' : Io}

/-! ## Entries -/

theorem registry_getOrCreate (h : r.registered sid = true) : (r.getOrCreate sid).1 = r := by
  obtain ⟨ref, href⟩ := Option.isSome_iff_exists.mp h
  simp [getOrCreate, href]

theorem getOrCreate_new (h : r.registered sid = false) :
    r.getOrCreate sid =
      ({ r with
        registry := r.registry.insert sid r.cells.length
        cells := r.cells ++ [.new sid] }, r.cells.length) := by
  have hnone : r.registry.lookup sid = none := by simpa [registered] using h
  simp [getOrCreate, hnone]

theorem registered_getOrCreate :
    (r.getOrCreate sid).1.registered sid' = true ↔ sid' = sid ∨ r.registered sid' = true := by
  cases h : r.registered sid with
  | true =>
    rw [registry_getOrCreate h]
    exact ⟨.inr, fun hor => hor.elim (fun heq => heq ▸ h) id⟩
  | false =>
    rw [getOrCreate_new h]
    by_cases heq : sid' = sid
    · subst heq
      simp [registered]
    · simp [registered, AList.lookup_insert_ne heq, heq]

theorem registered_remove :
    (r.remove sid).registered sid' = true ↔ sid' ≠ sid ∧ r.registered sid' = true := by
  by_cases heq : sid' = sid
  · subst heq
    simp [registered, remove]
  · simp [registered, remove, AList.lookup_erase_ne heq, heq]

theorem uploadRx_getOrCreate (h : r.registered sid = false) :
    ((r.getOrCreate sid).1.cells[(r.getOrCreate sid).2]?).any Cell.uploadRx = true := by
  simp [getOrCreate_new h, Cell.new]

/-! ## Who takes an entry down -/

def Tended (r : Sessions) : Prop :=
  ∀ sid, r.registered sid = true → r.posting sid = true ∨ r.reading sid = true

theorem any_set {α : Type} {l : List α} {a b : α} {P : α → Bool} (hk : l[k]? = some a)
    (h : P a = true → P b = true) (hany : l.any P = true) : (l.set k b).any P = true := by
  obtain ⟨c, hc, hP⟩ := List.any_eq_true.mp hany
  obtain ⟨j, hj⟩ := List.mem_iff_getElem?.mp hc
  rw [List.any_eq_true]
  by_cases heq : k = j
  · subst heq
    obtain rfl : a = c := Option.some.inj (hk.symm.trans hj)
    exact ⟨b, List.mem_set (List.getElem?_eq_some_iff.mp hk).1 b, h hP⟩
  · exact ⟨c, List.mem_iff_getElem?.mpr ⟨j, by rw [List.getElem?_set_ne heq, hj]⟩, hP⟩

theorem posting_setPost (hk : r.posts[k]? = some post)
    (h : sid ≠ post.sid ∨ (post'.sid = post.sid ∧ post'.phase ≠ .ended)) :
    r.posting sid = true → (r.setPost k post').posting sid = true := by
  refine any_set hk fun hpost => ?_
  simp only [Bool.and_eq_true, decide_eq_true_eq] at hpost ⊢
  obtain hne | ⟨hsid, hphase⟩ := h
  · exact absurd hpost.1.symm hne
  · exact ⟨hsid.trans hpost.1, hphase⟩

theorem reading_setIo (hi : r.ios[i]? = some io)
    (h : io.heldId ≠ some sid ∨ io'.heldId = io.heldId) :
    r.reading sid = true → (r.setIo i io').reading sid = true := by
  refine any_set hi fun hio => ?_
  simp only [decide_eq_true_eq] at hio ⊢
  exact h.elim (absurd hio) fun hsame => hsame.trans hio

theorem reading_append (h : r'.ios = r.ios ++ [io]) :
    r'.reading sid = true ↔ r.reading sid = true ∨ io.heldId = some sid := by
  simp [reading, h]

theorem posting_append (h : r'.posts = r.posts ++ [post]) :
    r'.posting sid = true ↔
      r.posting sid = true ∨ (post.sid = sid ∧ post.phase ≠ .ended) := by
  simp [posting, h]

/-! ## Each operation -/

theorem Tended.mono (h : r.Tended)
    (hregistry : ∀ sid, r'.registered sid = true → r.registered sid = true)
    (hposting : ∀ sid, r.posting sid = true → r'.posting sid = true)
    (hreading : ∀ sid, r.reading sid = true → r'.reading sid = true) : r'.Tended :=
  fun sid hsid => (h sid (hregistry sid hsid)).imp (hposting sid) (hreading sid)

theorem Tended.modifyCell (h : r.Tended) (ref : ℕ) (f : Cell → Cell) :
    (r.modifyCell ref f).Tended := h

theorem Tended.addIo (h : r.Tended) (c : ℕ) (source : Source) (held : Bool) :
    (r.addIo c source held).Tended := by
  refine h.mono ?_ ?_ fun sid hsid => (reading_append (ios_addIo c source held)).mpr (.inl hsid)
  · simp [registered]
  · simp [posting]

theorem Tended.get (h : r.Tended) (c : ℕ) {held : Bool} (f : Cell → Cell)
    (hor : r.registered sid = true ∨ held = true) :
    (((r.getOrCreate sid).1.modifyCell (r.getOrCreate sid).2 f).addIo c
      (.upload sid (r.getOrCreate sid).2) held).Tended := by
  intro sid' hsid'
  replace hsid' : (r.getOrCreate sid).1.registered sid' = true := by
    simpa [registered, Sessions.modifyCell] using hsid'
  have hposts (h : r.posting sid' = true) :
      (((r.getOrCreate sid).1.modifyCell (r.getOrCreate sid).2 f).addIo c
        (.upload sid (r.getOrCreate sid).2) held).posting sid' = true := by
    simpa [posting, Sessions.modifyCell] using h
  rw [reading_append (r := r) (by simp [Sessions.modifyCell]; rfl)]
  by_cases hold : r.registered sid' = true
  · exact (h sid' hold).imp hposts .inl
  · obtain rfl : sid' = sid := (registered_getOrCreate.mp hsid').resolve_right hold
    exact .inr (.inr (by simp [Io.heldId, hor.resolve_left hold]))

theorem Tended.addPost (h : r.Tended) (hpost : post.sid = sid) (hphase : post.phase ≠ .ended) :
    ((r.getOrCreate sid).1.addPost post).Tended := by
  intro sid' hsid'
  have happend : ((r.getOrCreate sid).1.addPost post).posts = r.posts ++ [post] := by
    simp [Sessions.addPost]
  rw [posting_append happend]
  obtain heq | hsid' := registered_getOrCreate.mp hsid'
  · exact .inl (.inr ⟨heq ▸ hpost, hphase⟩)
  · refine (h sid' hsid').imp .inl fun hreading => ?_
    simpa [reading, Sessions.addPost] using hreading

theorem Tended.postRead {chunk : Option Bytes} (h : r.Tended) (hk : r.posts[k]? = some post)
    (hread : r.postRead k post chunk = some r') : r'.Tended := by
  obtain ⟨-, ⟨bytes, -, -, rfl⟩ | ⟨-, rfl⟩⟩ := postRead_cases hread
  · exact h.mono (fun _ => id) (fun sid => posting_setPost hk (.inr ⟨rfl, by simp⟩)) fun _ => id
  · -- The entry of the id itself is removed, so its task is not needed any more.
    intro sid hsid
    obtain ⟨hne, hsid⟩ := registered_remove.mp hsid
    exact (h sid hsid).imp_left (posting_setPost hk (.inl hne))

theorem Tended.postSend {chunk : Bytes} (h : r.Tended) (hk : r.posts[k]? = some post)
    (hsend : r.postSend k post chunk = some r') : r'.Tended := by
  obtain ⟨cell, -, -, rfl⟩ := postSend_cases hsend
  refine Tended.modifyCell ?_ _ _
  exact h.mono (fun _ => id) (fun sid => posting_setPost hk (.inr ⟨rfl, by simp⟩)) fun _ => id

theorem Tended.readUpload (h : r.Tended) (hi : r.ios[i]? = some io)
    (hread : r.readUpload i n io ref = some r') : r'.Tended := by
  have hset : ∀ bytes, (r.setIo i (take io bytes n)).Tended := fun bytes =>
    h.mono (fun _ => id) (fun _ => id) fun sid => reading_setIo hi (.inr rfl)
  obtain ⟨-, rfl⟩ | ⟨-, cell, -, ⟨q, -, rfl⟩ | ⟨-, -, rfl⟩⟩ := readUpload_cases hread
  · exact hset _
  · exact (hset _).modifyCell _ _
  · exact hset _

theorem Tended.dropIo (h : r.Tended) (hi : r.ios[i]? = some io)
    (hor : ∀ sid, io.heldId = some sid → r.registered sid = false ∨ r.posting sid = true) :
    ((r.setIo i { io with held := false }).closeSource io.source).Tended := by
  intro sid hsid
  replace hsid : r.registered sid = true := by simpa [registered, setIo] using hsid
  have hposting (hp : r.posting sid = true) :
      ((r.setIo i { io with held := false }).closeSource io.source).posting sid = true := by
    simpa [posting, setIo] using hp
  by_cases hid : io.heldId = some sid
  · obtain hno | hp := hor sid hid
    · simp [hno] at hsid
    · exact .inl (hposting hp)
  · refine (h sid hsid).imp hposting fun hreading => ?_
    have hset : (r.setIo i { io with held := false }).reading sid = true :=
      reading_setIo hi (.inl hid) hreading
    simpa [reading] using hset

end Sessions

namespace XhttpServer

open Sessions

variable {config : XhttpConfig} {s t : XhttpServer} {a : XhttpAct} {as : List XhttpAct} {c : ℕ}
  {req : Request} {sid : String} {random : UInt32}

theorem tidy_request (htidy : s.Tidy config (.request c req random))
    (hroute : route config req = .streamUp sid) :
    s.reg.registered sid = true ∨ (req.method = .post ∧ config.mode.allowsStreamUp = true) ∨
      (req.method = .get ∧
        (config.mode.allowsStreamUp = true ∨ config.mode.allowsPacketUp = true) ∧
        s.canReport c = true) := by
  simpa [Tidy, tidy, hroute, or_assoc, and_assoc] using htidy

theorem registered_of_refused (htidy : s.Tidy config (.request c req random))
    (hroute : route config req = .streamUp sid) (h : RefusedUp config s sid req.method) :
    s.reg.registered sid = true := by
  obtain hreg | ⟨hmethod, hmode⟩ | ⟨hmethod, hmode, -⟩ := tidy_request htidy hroute
  · exact hreg
  · rw [hmethod] at h
    exact absurd (h.symm.trans hmode) (by simp)
  · by_contra hno
    have hrx := uploadRx_getOrCreate (Bool.not_eq_true _ ▸ hno)
    rw [hmethod] at h
    rcases h with hmode' | hrx'
    · simp [hmode'] at hmode
    · exact absurd (hrx'.symm.trans hrx) (by simp)

theorem tended_of_handled (hs : s.reg.Tended) (htidy : s.Tidy config (.request c req random))
    (h : Handled config s c req t) : t.reg.Tended := by
  cases h with
  | answered | refused | packet => exact hs
  | refusedUp sid method status _ hroute hmethod hrefused =>
    have hreg := registered_of_refused htidy hroute (hmethod ▸ hrefused)
    simpa [opened, respond, registry_getOrCreate hreg] using hs
  | streamOne random' _ => exact hs.addIo c .body (s.canReport c)
  | get sid random' hroute hmethod _ =>
    refine hs.get c _ ?_
    obtain hreg | ⟨hpost, -⟩ | ⟨-, -, hreport⟩ := tidy_request htidy hroute
    · exact .inl hreg
    · simp [hmethod] at hpost
    · exact .inr hreport
  | post sid _ _ => exact hs.addPost rfl (by simp)

theorem tidy_packetBody {p : ℕ} {chunks : List Bytes} {failed : Bool} {packet : Packet}
    (htidy : s.Tidy config (.packetBody p chunks failed))
    (hp : s.packets[p]? = some (some packet)) {payload : Bytes}
    (hbody : readBodyLimited DEFAULT_MAX_POST_BYTES failed [] chunks = .ok payload) :
    s.reg.registered packet.sid = true := by
  simpa [Tidy, tidy, hp, hbody, Except.isOk, Except.toBool] using htidy

theorem tidy_dropIo {i : ℕ} {io : Io} (htidy : s.Tidy config (.dropIo i))
    (hi : s.reg.ios[i]? = some io) (sid : String) (hid : io.heldId = some sid) :
    s.reg.registered sid = false ∨ s.reg.posting sid = true := by
  unfold Io.heldId at hid
  split at hid
  · rename_i sid' ref hsource
    split_ifs at hid
    cases hid
    simpa [Tidy, tidy, hi, hsource] using htidy
  · cases hid

theorem tended_step (hs : s.reg.Tended) (htidy : s.Tidy config a) (h : s.step config a = some t) :
    t.reg.Tended := by
  replace h := step_cases h
  cases h with
  | accept | httpEnds | packetGone => exact hs
  | request c req random _ h => exact tended_of_handled hs htidy h
  | packetBody p chunks failed packet hp =>
    cases hbody : readBodyLimited DEFAULT_MAX_POST_BYTES failed [] chunks with
    | error status => exact hs
    | ok payload =>
      have hreg := tidy_packetBody htidy hp hbody
      simpa [handlePacketBody, respond, sendUpgrade, registry_getOrCreate hreg] using
        hs.modifyCell _ _
  | postRead k chunk post reg hk h => exact hs.postRead hk h
  | postSent k chunk post reg hk _ h => exact hs.postSend hk h
  | read i n io sid ref reg hi _ _ h => exact hs.readUpload hi h
  | dropIo i io hi _ => exact hs.dropIo hi (tidy_dropIo htidy hi)

theorem registry_of_error {answer : Answer} (htidy : s.Tidy config a)
    (h : s.step config a = some t) (hanswer : t.answers = s.answers ++ [answer])
    (herror : answer.response.status ≠ OK) : t.reg.registry = s.reg.registry := by
  replace h := step_cases h
  cases h with
  | accept | httpEnds | packetGone => rfl
  | request c req random _ h =>
    cases h with
    | answered | refused | packet => rfl
    | refusedUp sid method status _ hroute hmethod hrefused =>
      have hreg := registered_of_refused htidy hroute (hmethod ▸ hrefused)
      simp [opened, respond, registry_getOrCreate hreg]
    | streamOne random' _ =>
      obtain rfl : ⟨c, req.method, streaming config random'⟩ = answer := by
        simpa [respond, upgrade, sendUpgrade] using hanswer
      exact absurd rfl herror
    | get sid random' _ _ _ =>
      obtain rfl : ⟨c, .get, streaming config random'⟩ = answer := by
        simpa [respond, upgrade, sendUpgrade, takeRx] using hanswer
      exact absurd rfl herror
    | post sid _ _ =>
      obtain rfl : ⟨c, .post, postResponse⟩ = answer := by
        simpa [respond, sendUpgrade, spawnPost] using hanswer
      exact absurd rfl herror
  | packetBody p chunks failed packet hp =>
    cases hbody : readBodyLimited DEFAULT_MAX_POST_BYTES failed [] chunks with
    | error status => rfl
    | ok payload =>
      have hreg := tidy_packetBody htidy hp hbody
      simp [handlePacketBody, respond, sendUpgrade, registry_getOrCreate hreg,
        Sessions.modifyCell]
  | postRead k chunk post reg _ _ => simp at hanswer
  | postSent k chunk post reg _ _ _ => simp at hanswer
  | read i n io sid ref reg _ _ _ _ => simp at hanswer
  | dropIo i io _ _ => simp at hanswer

/-- In every run of tidy steps: an id that no request in progress names has no entry; there
    are no more entries than requests in progress; and a step that answers a request with
    an error leaves the registry as it is. -/
theorem registry_tidy (hrun : Run (step config) (Tidy config) new as s) :
    (∀ sid, sid ∉ s.inProgress → s.reg.registered sid = false) ∧
    s.reg.registry.keys.length ≤ s.inProgress.length ∧
    ∀ a t answer, s.Tidy config a → s.step config a = some t →
      t.answers = s.answers ++ [answer] → answer.response.status ≠ OK →
      t.reg.registry = s.reg.registry := by
  have htended : s.reg.Tended := hrun.invariant (I := fun s => s.reg.Tended)
    (fun s a t hs htidy hst => tended_step hs htidy hst)
    (by simp [Tended, registered, new, Sessions.new])
  have hmem : ∀ sid, s.reg.registered sid = true → sid ∈ s.inProgress := fun sid hsid =>
    List.mem_append_left _ (mem_inProgress.mpr (htended sid hsid))
  refine ⟨fun sid hsid => ?_, ?_, fun a t answer htidy hst => registry_of_error htidy hst⟩
  · exact Bool.eq_false_iff.mpr fun h => hsid (hmem sid h)
  · refine (List.subperm_of_subset s.reg.registry.keys_nodup fun sid hsid => ?_).length_le
    exact hmem sid (AList.lookup_isSome.mpr (AList.mem_keys.mpr hsid))

theorem registry_tidy_pair :
    ∃ s : XhttpServer, Run (step .auto) (Tidy .auto) new
        [.accept, .accept, .request 0 (.plain .get "/xhttp/a") 0,
          .request 1 (.plain .post "/xhttp/a") 0, .postRead 0 none, .dropIo 0] s ∧
      s.inProgress = [] ∧ s.reg.registry.keys.length ≤ 0 := by
  have hrun : Run (step .auto) (Tidy .auto) new [.accept, .accept,
      .request 0 (.plain .get "/xhttp/a") 0, .request 1 (.plain .post "/xhttp/a") 0,
      .postRead 0 none, .dropIo 0] _ := exec_run (fun _ _ h => h) rfl
  obtain ⟨-, hlength, -⟩ := registry_tidy hrun
  exact ⟨_, hrun, rfl, hlength⟩

theorem registry_leaks :
    ∃ s t u : XhttpServer,
      Run (step .auto) Any new [.accept, .request 0 (.plain (.other "PUT") "/xhttp/a") 0] s ∧
      s.answers.map (·.response.status) = [METHOD_NOT_ALLOWED] ∧
      s.inProgress = [] ∧ s.reg.registry.keys = ["a"] ∧
      Run (step .auto) Any s [.request 0 (.plain .post "/xhttp/b/0") 0] t ∧
      t.inProgress = ["b"] ∧
      Run (step .auto) Any t [.packetBody 0 [[1]] false] u ∧
      u.answers.map (·.response.status) = [METHOD_NOT_ALLOWED, OK] ∧
      u.inProgress = [] ∧ u.reg.registry.keys.length = 2 := by
  exact ⟨_, _, _, exec_any rfl, rfl, rfl, rfl, exec_any rfl, rfl, exec_any rfl, rfl, rfl, rfl⟩

end XhttpServer

end SkadiCore.Xhttp
