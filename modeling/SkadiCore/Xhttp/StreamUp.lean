import SkadiCore.Xhttp.Uplink

/-!
# The two requests of a stream-up session

In stream-up mode a `POST` carries the uplink and a `GET` the downlink of a session
(`handle_stream_up`, `crates/skadi-transport/src/xhttp/accept.rs`, lines 265-322). They come
on different connections and in any order. Whichever comes first creates the session; the
`GET` takes its receiver, and the task of the `POST` removes the session at the end of its
body (`session.rs`, lines 49-109).

The session is followed from `Waiting` over the `GET` to `Joined`, step by step of its
`Uplink`.
-/

namespace SkadiCore.Xhttp

/-! ## One `POST`, before and after the `GET` -/

def Post.pending (post : Post) : Bytes :=
  match post.phase with
  | .sending chunk => chunk
  | _ => []

theorem Post.pending_of_ne {post : Post} (h : ∀ chunk, post.phase ≠ .sending chunk) :
    post.pending = [] := by
  unfold pending
  split
  · exact absurd ‹_› (h _)
  · rfl

structure Carries (read : Bytes) (cell : Cell) (post : Post) : Prop where
  isOpen : cell.queue.closed = false
  queued : ∀ chunk ∈ cell.queue.queue, chunk ≠ []
  sending : ∀ chunk, post.phase = .sending chunk → chunk ≠ []
  flow : read ++ cell.queue.queue.flatten ++ post.pending = post.body

namespace Carries

variable {read : Bytes} {cell : Cell} {post : Post}

theorem chunk {bytes : Bytes} (h : Carries read cell post) (hphase : post.phase = .reading)
    (hlen : 0 < bytes.length) :
    Carries read cell { post with phase := .sending bytes, body := post.body ++ bytes } := by
  refine ⟨h.isOpen, h.queued, ?_, ?_⟩
  · rintro chunk ⟨⟩
    exact List.ne_nil_of_length_pos hlen
  · have hflow := h.flow
    rw [Post.pending_of_ne (by simp [hphase]), List.append_nil] at hflow
    show read ++ cell.queue.queue.flatten ++ bytes = post.body ++ bytes
    rw [hflow]

theorem ended (h : Carries read cell post) (hphase : post.phase = .reading) :
    Carries read cell { post with phase := .ended } := by
  refine ⟨h.isOpen, h.queued, by simp, ?_⟩
  have hflow := h.flow
  rwa [Post.pending_of_ne (by simp [hphase])] at hflow

theorem sent {bytes : Bytes} (h : Carries read cell post) (hphase : post.phase = .sending bytes)
    (hfree : cell.queue.free = true) :
    Carries read (cell.setQueue (cell.queue.offer bytes)) { post with phase := .reading } := by
  have hlt : cell.queue.queue.length < uploadQueueSize := by
    simpa [Channel.free, h.isOpen] using hfree
  obtain ⟨hq, -, hc⟩ := Channel.offer_of_lt h.isOpen hlt bytes
  have hflow := h.flow
  rw [Post.pending, hphase] at hflow
  refine ⟨hc, ?_, by simp, ?_⟩
  · intro chunk hchunk
    rw [Cell.queue, Cell.setQueue, hq] at hchunk
    obtain hmem | hmem := List.mem_append.mp hchunk
    · exact h.queued chunk hmem
    · obtain rfl := List.mem_singleton.mp hmem
      exact h.sending chunk hphase
  · show read ++ (cell.queue.offer bytes).queue.flatten ++ [] = post.body
    rw [hq, ← hflow]
    simp

theorem received {q : UploadQueue} (h : Carries read cell post) (hq : cell.queue.recv = some q) :
    cell.queue.queue.headD [] ≠ [] ∧
      Carries (read ++ cell.queue.queue.headD []) (cell.setQueue q) post := by
  obtain ⟨chunk, queue, hqueue, hqueue', -, hc⟩ := Channel.recv_eq hq
  have hflow := h.flow
  have hqueued := h.queued
  rw [hqueue] at hflow hqueued ⊢
  refine ⟨hqueued chunk (List.mem_cons_self ..), hc.trans h.isOpen, ?_, h.sending, ?_⟩
  · intro chunk' hmem
    exact hqueued chunk' (List.mem_cons_of_mem _ (hqueue' ▸ hmem))
  · show read ++ chunk ++ q.queue.flatten ++ post.pending = post.body
    rw [hqueue', ← hflow]
    simp

end Carries

/-- The entry of the session in the registry, as long as its `POST` goes on. -/
def Post.entry (post : Post) : Option ℕ := if post.phase = .ended then none else some post.ref

structure Reader (sid : String) (post : Post) (cell : Cell) (io : Io) : Prop where
  source : io.source = .upload sid post.ref
  held : io.held = true
  eof : io.eof = true → post.phase = .ended ∧ io.buf = [] ∧ cell.queue.queue = []

def readBy (io : Option Io) : Bytes := io.elim [] fun io => io.got ++ io.buf

/-- A session with one `POST`, of number `k`, and no reader but that of number `i`. -/
structure Posting (sid : String) (i k : ℕ) (post : Post) (cell : Cell) (io : Option Io)
    (u : Uplink) : Prop where
  eq : u = ⟨post.entry, only post.ref cell, only k post, Function.update (fun _ => none) i io⟩
  carries : Carries (readBy io) cell post
  reader : ∀ x ∈ io, Reader sid post cell x

/-- Before the `GET`. -/
def Waiting (sid : String) (i : ℕ) (u : Uplink) : Prop :=
  u = ⟨none, fun _ => none, fun _ => none, fun _ => none⟩ ∨
    ∃ k post cell, Posting sid i k post cell none u ∧ cell.uploadRx = true

def Cell.taken (sid : String) : Cell := { Cell.new sid with uploadRx := false }

/-- Behind the `GET`, which made the reader `i`. -/
def Joined (sid : String) (i : ℕ) (u : Uplink) : Prop :=
  (∃ c ref, u = ⟨some ref, only ref (.taken sid), fun _ => none,
    only i ⟨c, .upload sid ref, true, [], [], false⟩⟩) ∨
    ∃ k post cell io, Posting sid i k post cell (some io) u

theorem got_take (io : Io) (bytes : Bytes) (n : ℕ) :
    readBy (some (Sessions.take io bytes n)) = io.got ++ bytes := by
  simp [readBy, Sessions.take]

theorem eof_take {io : Io} {bytes : Bytes} (h : bytes ≠ []) (n : ℕ) :
    (Sessions.take io bytes n).eof = io.eof := by
  simp [Sessions.take, h]

section Steps

variable {sid : String} {i k : ℕ} {u u' : Uplink} {post : Post} {cell : Cell}

theorem posting_new {io : Option Io} (c ref : ℕ) (hcell : cell.queue = Channel.new _ _)
    (hread : readBy io = []) (hreader : ∀ x ∈ io, Reader sid ⟨c, sid, ref, .reading, []⟩ cell x) :
    Posting sid i k ⟨c, sid, ref, .reading, []⟩ cell io
      ⟨some ref, only ref cell, only k ⟨c, sid, ref, .reading, []⟩,
        Function.update (fun _ => none) i io⟩ := by
  refine ⟨rfl, ⟨?_, ?_, by simp, ?_⟩, hreader⟩ <;>
    simp [hcell, hread, Channel.new, Post.pending]

theorem Posting.step {io : Option Io} (hp : Posting sid i k post cell io u)
    (h : UplinkStep sid u u') :
    ∃ post' cell' io', Posting sid i k post' cell' io' u' ∧ cell'.uploadRx = cell.uploadRx ∧
      io'.isSome = io.isSome := by
  obtain ⟨rfl, hcarries, hreader⟩ := hp
  have hown {i' : ℕ} {x : Io} (h : Function.update (fun _ => none) i io i' = some x) :
      i' = i ∧ io = some x := by
    rw [Function.update_apply] at h
    split_ifs at h with heq
    exact ⟨heq, h⟩
  -- as long as the `POST` goes on, the reader has not seen the end
  have hgoing (hphase : post.phase ≠ .ended) {post' : Post} {cell' : Cell}
      (href : post'.ref = post.ref) : ∀ x ∈ io, Reader sid post' cell' x := fun x hx =>
    ⟨href ▸ (hreader x hx).source, (hreader x hx).held,
      fun heof => absurd ((hreader x hx).eof heof).1 hphase⟩
  cases h with
  | other => exact ⟨post, cell, io, ⟨rfl, hcarries, hreader⟩, rfl, rfl⟩
  | created c k' ref hnone | found c k' ref hnone => simpa using hnone k
  | chunk k' post' bytes hk hreading hlen =>
    obtain ⟨rfl, rfl⟩ := only_eq_some.mp hk
    exact ⟨_, cell, io, ⟨by simp [Post.entry, hreading], hcarries.chunk hreading hlen,
      hgoing (by simp [hreading]) rfl⟩, rfl, rfl⟩
  | ended k' post' hk hreading =>
    obtain ⟨rfl, rfl⟩ := only_eq_some.mp hk
    exact ⟨_, cell, io, ⟨by simp [Post.entry], hcarries.ended hreading,
      hgoing (by simp [hreading]) rfl⟩, rfl, rfl⟩
  | sent k' post' bytes cell' hk hsending hcell hfree =>
    obtain ⟨rfl, rfl⟩ := only_eq_some.mp hk
    obtain ⟨-, rfl⟩ := only_eq_some.mp hcell
    exact ⟨_, _, io, ⟨by simp [Post.entry, hsending], hcarries.sent hsending hfree,
      hgoing (by simp [hsending]) rfl⟩, rfl, rfl⟩
  | buffered i' n x hi hbuf =>
    obtain ⟨rfl, rfl⟩ := hown hi
    obtain ⟨hsource, hheld, heof⟩ := hreader x rfl
    refine ⟨post, cell, some (Sessions.take x x.buf n), ⟨by simp, by rwa [got_take], ?_⟩, rfl, rfl⟩
    rintro _ ⟨⟩
    exact ⟨hsource, hheld, fun h => absurd (heof (eof_take hbuf n ▸ h)).2.1 hbuf⟩
  | received i' n ref x cell' q hi hbuf _ hcell hq =>
    obtain ⟨rfl, rfl⟩ := hown hi
    obtain ⟨rfl, rfl⟩ := only_eq_some.mp hcell
    obtain ⟨hsource, hheld, heof⟩ := hreader x rfl
    rw [readBy, Option.elim_some, hbuf, List.append_nil] at hcarries
    obtain ⟨hne, hcarries⟩ := hcarries.received hq
    refine ⟨post, cell.setQueue q, some (Sessions.take x (cell.queue.queue.headD []) n),
      ⟨by simp, by rwa [got_take], ?_⟩, rfl, rfl⟩
    rintro _ ⟨⟩
    refine ⟨hsource, hheld, fun h => ?_⟩
    rw [(heof (eof_take hne n ▸ h)).2.2] at hne
    exact absurd rfl hne
  | finished i' n ref x cell' hi hbuf _ hcell hq hentry _ =>
    obtain ⟨rfl, rfl⟩ := hown hi
    obtain ⟨rfl, rfl⟩ := only_eq_some.mp hcell
    obtain ⟨hsource, hheld, -⟩ := hreader x rfl
    refine ⟨post, cell, some (Sessions.take x [] n), ⟨by simp, ?_, ?_⟩, rfl, rfl⟩
    · rwa [got_take, ← hbuf]
    · rintro _ ⟨⟩
      refine ⟨hsource, hheld, fun _ => ⟨?_, by simp [Sessions.take], Channel.recv_eq_none.mp hq⟩⟩
      by_contra hphase
      exact hentry (if_neg hphase)

theorem Waiting.step (hw : Waiting sid i u) (h : UplinkStep sid u u') : Waiting sid i u' := by
  obtain rfl | ⟨k, post, cell, hp, hrx⟩ := hw
  · cases h with
    | other => exact .inl rfl
    | created c k ref =>
      have hnew := @posting_new sid i k (.new sid) none c ref rfl rfl (by simp)
      rw [Function.update_eq_self] at hnew
      exact .inr ⟨k, _, .new sid, hnew, rfl⟩
    | found c k ref _ hentry => cases hentry
    | chunk k post bytes hk | ended k post hk | sent k post bytes cell hk => cases hk
    | buffered i n io hi | received i n ref io cell q hi | finished i n ref io cell hi => cases hi
  · obtain ⟨post', cell', io', hp', hrx', hio⟩ := hp.step h
    obtain rfl : io' = none := by simpa using hio
    exact .inr ⟨k, post', cell', hp', hrx'.trans hrx⟩

theorem Joined.step (hj : Joined sid i u) (h : UplinkStep sid u u') : Joined sid i u' := by
  obtain ⟨c, ref, rfl⟩ | ⟨k, post, cell, io, hp⟩ := hj
  · cases h with
    | other => exact .inl ⟨c, ref, rfl⟩
    | created c' k ref' _ hentry => cases hentry
    | found c' k ref' _ hentry =>
      cases hentry
      refine .inr ⟨k, _, .taken sid, _, posting_new c' ref rfl rfl ?_⟩
      rintro _ ⟨⟩
      exact ⟨rfl, rfl, by simp⟩
    | chunk k post bytes hk | ended k post hk | sent k post bytes cell hk => cases hk
    -- nothing is in the buffer or in the queue, and the entry keeps the session
    | buffered i' n io hi hbuf =>
      obtain ⟨-, rfl⟩ := only_eq_some.mp hi
      exact absurd rfl hbuf
    | received i' n ref' io cell q hi _ _ hcell hq =>
      obtain ⟨-, rfl⟩ := only_eq_some.mp hcell
      obtain ⟨chunk, queue, hqueue, -⟩ := Channel.recv_eq hq
      cases hqueue
    | finished i' n ref' io cell hi _ hsource _ _ hentry _ =>
      obtain ⟨-, rfl⟩ := only_eq_some.mp hi
      cases hsource
      exact absurd rfl hentry
  · obtain ⟨post', cell', io', hp', -, hio⟩ := hp.step h
    obtain ⟨io', rfl⟩ := Option.isSome_iff_exists.mp hio
    exact .inr ⟨k, post', cell', io', hp'⟩

end Steps

/-! ## The `GET` -/

namespace Sessions

variable {r : Sessions} {i n ref : ℕ} {sid : String} {cell : Cell} {io : Io} {q : UploadQueue}

def uploaded (r : Sessions) (sid : String) : Bytes :=
  (r.posts.filter fun post => post.sid = sid).flatMap Post.body

/-- A POST of the session was read to its end. -/
def Finished (r : Sessions) (sid : String) : Prop :=
  ∃ post ∈ r.posts, post.sid = sid ∧ post.phase = .ended

theorem uploaded_of_only {k : ℕ} {post : Post} (h : (r.uplink sid).post = only k post) :
    r.uploaded sid = post.body := by
  rw [uploaded, filter_of_picked_only h, List.flatMap_singleton]

theorem finished_iff : r.Finished sid ↔
    ∃ k post, (r.uplink sid).post k = some post ∧ post.phase = .ended := by
  constructor
  · rintro ⟨post, hmem, hsid, hphase⟩
    obtain ⟨k, hk⟩ := List.mem_iff_getElem?.mp hmem
    exact ⟨k, post, post_uplink.mpr ⟨hk, hsid⟩, hphase⟩
  · rintro ⟨k, post, hpost, hphase⟩
    obtain ⟨hk, hsid⟩ := post_uplink.mp hpost
    exact ⟨post, List.mem_of_getElem? hk, hsid, hphase⟩

theorem readUpload_buffered (hbuf : io.buf ≠ []) :
    r.readUpload i n io ref = some (r.setIo i (take io io.buf n)) := if_pos hbuf

theorem readUpload_received (hbuf : io.buf = []) (hcell : r.cells[ref]? = some cell)
    (hq : cell.queue.recv = some q) :
    r.readUpload i n io ref =
      some ((r.setIo i (take io (cell.queue.queue.headD []) n)).modifyCell ref fun cell =>
        cell.setQueue q) := by
  simp [readUpload, hbuf, hcell, hq]

theorem readUpload_empty (hbuf : io.buf = []) (hcell : r.cells[ref]? = some cell)
    (hq : cell.queue.recv = none) :
    r.readUpload i n io ref =
      if r.referred ref then none else some (r.setIo i (take io [] n)) := by
  simp [readUpload, hbuf, hcell, hq]

theorem referred_of_entry (h : (r.uplink sid).entry = some ref) : r.referred ref = true := by
  simp only [referred, Bool.or_eq_true, List.any_eq_true]
  exact .inl ⟨⟨sid, ref⟩, AList.mem_lookup_iff.mp h, by simp⟩

theorem uplink_addIo_held (c : ℕ) :
    (r.addIo c (.upload sid ref) true).uplink sid =
      { r.uplink sid with
        io := Function.update (r.uplink sid).io r.ios.length
          (some ⟨c, .upload sid ref, true, [], [], false⟩) } :=
  Uplink.ext rfl rfl rfl (picked_append.trans (by simp [Source.sid, uplink]))

end Sessions

namespace XhttpServer

open Sessions

variable {config : XhttpConfig} {s t : XhttpServer} {a : XhttpAct} {as bs : List XhttpAct}
  {sid : String} {c i k n ref : ℕ} {req : Request} {random : UInt32} {io : Io} {cell : Cell}
  {post : Post}

theorem uplink_takeRx_found (hentry : (s.reg.uplink sid).entry = some ref)
    (hcell : (s.reg.uplink sid).cell ref = some cell) :
    s.refOf sid = ref ∧ (s.takeRx sid).reg.uplink sid =
      { s.reg.uplink sid with
        cell := Function.update (s.reg.uplink sid).cell ref
          (some { cell with uploadRx := false }) } := by
  obtain ⟨hcell, hsid⟩ := cell_uplink.mp hcell
  simp only [takeRx, opened, refOf, getOrCreate_found hentry, true_and]
  rw [uplink_modifyCell hcell (by rfl), if_pos hsid]

theorem uplink_takeRx_created (hentry : (s.reg.uplink sid).entry = none) :
    s.refOf sid = s.reg.cells.length ∧ (s.takeRx sid).reg.uplink sid =
      { s.reg.uplink sid with
        entry := some s.reg.cells.length
        cell := Function.update (s.reg.uplink sid).cell s.reg.cells.length
          (some (.taken sid)) } := by
  obtain ⟨href, hup⟩ := uplink_getOrCreate hentry
  have hcell : ((s.reg.getOrCreate sid).1.uplink sid).cell s.reg.cells.length =
      some (.new sid) := by
    rw [hup]
    exact Function.update_self ..
  refine ⟨href, ?_⟩
  simp only [takeRx, opened, refOf, href]
  obtain ⟨hcell, hsid⟩ := cell_uplink.mp hcell
  rw [uplink_modifyCell hcell (by rfl), if_pos hsid, hup]
  exact Uplink.ext rfl (Function.update_idem ..) rfl rfl

theorem uplink_get (hroute : route config req = .streamUp sid) (hget : req.method = .get)
    (hmode : config.mode.allowsStreamUp = true) (hreport : s.canReport c = true)
    (hrx : ((s.opened sid).reg.cells[s.refOf sid]?).any Cell.uploadRx = true)
    (hst : s.step config (.request c req random) = some t) :
    t.packets = s.packets ∧ t.reg.uplink sid =
      { (s.takeRx sid).reg.uplink sid with
        io := Function.update ((s.takeRx sid).reg.uplink sid).io s.reg.ios.length
          (some ⟨c, .upload sid (s.refOf sid), true, [], [], false⟩) } := by
  replace hst := step_cases hst
  cases hst with
  | request c req random _ h =>
    cases h with
    | answered response hroute' => simp [hroute] at hroute'
    | refused status _ hno => exact absurd hroute (hno sid)
    | packet packet seq hroute' => simp [hroute] at hroute'
    | streamOne random' hroute' => simp [hroute] at hroute'
    | post sid' _ hpost => simp [hget] at hpost
    | refusedUp sid' method status _ hroute' hmethod hrefused =>
      obtain rfl : sid = sid' := by simpa [hroute] using hroute'
      rw [← hmethod, hget] at hrefused
      rcases hrefused with ⟨hno, -⟩ | hno
      · simp [hmode] at hno
      · simp [hrx] at hno
    | get sid' random' hroute' _ _ =>
      obtain rfl : sid = sid' := by simpa [hroute] using hroute'
      have hios : (s.takeRx sid).reg.ios = s.reg.ios := by simp [takeRx, opened, modifyCell]
      refine ⟨rfl, ?_⟩
      show ((s.takeRx sid).reg.addIo c (.upload sid (s.refOf sid)) (s.canReport c)).uplink sid = _
      rw [hreport, uplink_addIo_held, hios]

theorem uploadRx_of_waiting (hw : Waiting sid i (s.reg.uplink sid)) :
    ((s.opened sid).reg.cells[s.refOf sid]?).any Cell.uploadRx = true := by
  cases hentry : (s.reg.uplink sid).entry with
  | none =>
    obtain ⟨href, hup⟩ := uplink_getOrCreate hentry
    have hcell : ((s.reg.getOrCreate sid).1.uplink sid).cell s.reg.cells.length =
        some (.new sid) := by
      rw [hup]
      exact Function.update_self ..
    simp [opened, refOf, href, (cell_uplink.mp hcell).1, Cell.new]
  | some ref =>
    obtain hw | ⟨k, post, cell, hp, hrx⟩ := hw
    · simp [hw] at hentry
    · have hcell : (s.reg.uplink sid).cell ref = some cell := by
        simp [hp.eq, Post.entry] at hentry ⊢
        simp [hentry.2]
      simp [opened, refOf, getOrCreate_found hentry, (cell_uplink.mp hcell).1, hrx]

theorem joined_of_get (hw : Waiting sid i (s.reg.uplink sid)) (hunfinished : ¬ s.reg.Finished sid)
    (hup : t.reg.uplink sid =
      { (s.takeRx sid).reg.uplink sid with
        io := Function.update ((s.takeRx sid).reg.uplink sid).io i
          (some ⟨c, .upload sid (s.refOf sid), true, [], [], false⟩) }) :
    Joined sid i (t.reg.uplink sid) := by
  obtain hu | ⟨k, post, cell, ⟨hu, hcarries, -⟩, -⟩ := hw
  · obtain ⟨href, htake⟩ := uplink_takeRx_created (s := s) (by rw [hu])
    rw [hup, htake, href, hu]
    exact .inl ⟨c, _, rfl⟩
  · have hphase : post.phase ≠ .ended := fun hphase =>
      hunfinished (finished_iff.mpr ⟨k, post, by rw [hu]; exact only_self, hphase⟩)
    have hcell : (s.reg.uplink sid).cell post.ref = some cell := by rw [hu]; exact only_self
    obtain ⟨href, htake⟩ := uplink_takeRx_found (by rw [hu]; exact if_neg hphase) hcell
    refine .inr ⟨k, post, { cell with uploadRx := false },
      ⟨c, .upload sid post.ref, true, [], [], false⟩, ?_,
      ⟨hcarries.isOpen, hcarries.queued, hcarries.sending, hcarries.flow⟩, ?_⟩
    · rw [hup, htake, href, hu]
      simp
    · rintro _ ⟨⟩
      exact ⟨rfl, rfl, by simp⟩

theorem step_read (hi : (s.reg.uplink sid).io i = some io) (hheld : io.held = true)
    (hsource : io.source = .upload sid ref) (n : ℕ) : s.step config (.read i n) =
      (s.reg.readUpload i n io ref).map fun reg => { s with reg := reg } := by
  simp [step, (io_uplink.mp hi).1, hheld, hsource]

theorem blocked_of_get (hw : Waiting sid i (s.reg.uplink sid)) (hfinished : s.reg.Finished sid)
    (hup : t.reg.uplink sid =
      { (s.takeRx sid).reg.uplink sid with
        io := Function.update ((s.takeRx sid).reg.uplink sid).io i
          (some ⟨c, .upload sid (s.refOf sid), true, [], [], false⟩) }) (n : ℕ) :
    t.step config (.read i n) = none := by
  have hentry : (s.reg.uplink sid).entry = none := by
    obtain ⟨k, post, hpost, hphase⟩ := finished_iff.mp hfinished
    obtain hu | ⟨k', post', cell, hp, -⟩ := hw
    · rw [hu]
    · rw [hp.eq] at hpost ⊢
      obtain ⟨-, rfl⟩ := only_eq_some.mp hpost
      exact if_pos hphase
  obtain ⟨href, htake⟩ := uplink_takeRx_created hentry
  rw [htake, href] at hup
  have hio : (t.reg.uplink sid).io i =
      some ⟨c, .upload sid s.reg.cells.length, true, [], [], false⟩ := by
    rw [hup]
    exact Function.update_self ..
  have hcell : (t.reg.uplink sid).cell s.reg.cells.length = some (.taken sid) := by
    rw [hup]
    exact Function.update_self ..
  have hentry' : (t.reg.uplink sid).entry = some s.reg.cells.length := by rw [hup]
  rw [step_read hio rfl rfl, readUpload_empty rfl (cell_uplink.mp hcell).1 rfl,
    if_pos (referred_of_entry hentry')]
  rfl

/-! ## What the reader gets -/

/-- Only stream `i` is read. -/
def Reads (i : ℕ) (_ : XhttpServer) (a : XhttpAct) : Prop := ∃ n, a = .read i n

/-- The reader has a prefix of what the `POST` has read, all of it if it has seen the end,
    and sees the end only if the `POST` has ended. Once the `POST` has ended, reads alone
    lead there. Until then the `POST` and the reader do not wait for each other. -/
structure Exact (config : XhttpConfig) (sid : String) (i : ℕ) (s : XhttpServer) : Prop where
  reader : ∃ io, s.reg.ios[i]? = some io ∧ io.got <+: s.reg.uploaded sid ∧
    (io.eof = true → s.reg.Finished sid ∧ io.got = s.reg.uploaded sid)
  ends : s.reg.Finished sid → ∃ as t io, Run (step config) (Reads i) s as t ∧
    t.reg.ios[i]? = some io ∧ io.got = s.reg.uploaded sid ∧ io.eof = true
  moves : ∀ k post chunk, s.reg.posts[k]? = some post → post.sid = sid →
    post.phase = .sending chunk →
    (∃ t, s.step config (.postSent k) = some t) ∨ ∃ t, s.step config (.read i 1) = some t

section Posting

variable (hp : Posting sid i k post cell (some io) (s.reg.uplink sid))

include hp

theorem io_of_posting : (s.reg.uplink sid).io i = some io := by rw [hp.eq]; simp

theorem cell_of_posting : s.reg.cells[post.ref]? = some cell ∧ cell.sid = sid :=
  cell_uplink.mp (by rw [hp.eq]; exact only_self)

theorem step_read_of_posting : s.step config (.read i n) =
    (s.reg.readUpload i n io post.ref).map fun reg => { s with reg := reg } :=
  step_read (io_of_posting hp) (hp.reader io rfl).held (hp.reader io rfl).source n

theorem body_of_posting (hphase : post.phase = .ended) :
    io.got ++ (io.buf ++ cell.queue.queue.flatten) = post.body := by
  have hflow := hp.carries.flow
  rwa [Post.pending_of_ne (by simp [hphase]), List.append_nil, readBy, Option.elim_some,
    List.append_assoc] at hflow

theorem got_of_eof (h : io.eof = true) : io.got = post.body := by
  obtain ⟨hphase, hbuf, hqueue⟩ := (hp.reader io rfl).eof h
  have hbody := body_of_posting hp hphase
  simpa [hbuf, hqueue] using hbody

/-- Behind the end of the `POST` a read does not wait. -/
theorem exists_read (config : XhttpConfig) (hwf : s.reg.WF) (hphase : post.phase = .ended) :
    ∃ t bytes, s.step config (.read i 1) = some t ∧ t.reg.posts = s.reg.posts ∧
      t.reg.ios[i]? = some (take io bytes 1) := by
  have hlt := (List.getElem?_eq_some_iff.mp (io_uplink.mp (io_of_posting hp)).1).1
  obtain ⟨hcell, hsid⟩ := cell_of_posting hp
  rw [step_read_of_posting hp]
  by_cases hbuf : io.buf = []
  · cases hq : cell.queue.recv with
    | some q =>
      rw [readUpload_received hbuf hcell hq]
      exact ⟨_, cell.queue.queue.headD [], rfl, rfl, by simp [setIo, modifyCell, hlt]⟩
    | none =>
      have hreferred : s.reg.referred post.ref = false := by
        refine referred_eq_false hwf (sidAt_eq_some.mpr ⟨cell, hcell, hsid⟩)
          (by simp [hp.eq, Post.entry, hphase]) fun k' post' hk => ?_
        rw [hp.eq] at hk
        obtain ⟨-, rfl⟩ := only_eq_some.mp hk
        exact hphase
      rw [readUpload_empty hbuf hcell hq, hreferred]
      exact ⟨_, [], rfl, rfl, by simp [setIo, hlt]⟩
  · rw [readUpload_buffered hbuf]
    exact ⟨_, io.buf, rfl, rfl, by simp [setIo, hlt]⟩

theorem moves_of_posting {chunk : Bytes} (hphase : post.phase = .sending chunk) :
    (∃ t, s.step config (.postSent k) = some t) ∨ ∃ t, s.step config (.read i 1) = some t := by
  have hk : (s.reg.uplink sid).post k = some post := by rw [hp.eq]; exact only_self
  obtain ⟨hcell, -⟩ := cell_of_posting hp
  by_cases hfree : cell.queue.free = true
  · refine .inl ?_
    simp [step, (post_uplink.mp hk).1, hphase, postSend, hcell, hfree]
  · refine .inr ?_
    rw [step_read_of_posting hp]
    by_cases hbuf : io.buf = []
    · obtain ⟨chunk', queue, hqueue⟩ : ∃ chunk' queue, cell.queue.queue = chunk' :: queue := by
        refine List.exists_cons_of_length_pos ?_
        have hfull : uploadQueueSize ≤ cell.queue.queue.length := by
          simpa [Channel.free, hp.carries.isOpen] using hfree
        exact lt_of_lt_of_le (by decide) hfull
      obtain ⟨q, hq⟩ := Channel.exists_recv hqueue
      rw [readUpload_received hbuf hcell hq]
      exact ⟨_, rfl⟩
    · rw [readUpload_buffered hbuf]
      exact ⟨_, rfl⟩

end Posting

theorem read_all {s : XhttpServer} {cell : Cell} {io : Io} (hwf : s.reg.WF) (hno : s.NoPacket sid)
    (hmode : config.mode.allowsStreamUp = true)
    (hp : Posting sid i k post cell (some io) (s.reg.uplink sid)) (hphase : post.phase = .ended) :
    ∃ as t io', Run (step config) (Reads i) s as t ∧ t.reg.ios[i]? = some io' ∧
      io'.got = post.body ∧ io'.eof = true := by
  by_cases heof : io.eof = true
  · exact ⟨[], s, io, .nil s, (io_uplink.mp (io_of_posting hp)).1, got_of_eof hp heof, heof⟩
  obtain ⟨t, bytes, hst, hposts, hio⟩ := exists_read hp config hwf hphase
  have hcond : s.Undisturbed config sid (.read i 1) := rfl
  obtain ⟨post', cell', io', hp', -, hsome⟩ := hp.step (uplinkStep_of_step hwf hno hmode hcond hst)
  obtain ⟨io', rfl⟩ := Option.isSome_iff_exists.mp hsome
  obtain rfl : take io bytes 1 = io' :=
    Option.some.inj (hio.symm.trans (io_uplink.mp (io_of_posting hp')).1)
  obtain rfl : post = post' := by
    have hk : (t.reg.uplink sid).post k = (s.reg.uplink sid).post k := by simp [uplink, hposts]
    simpa [hp.eq, hp'.eq] using hk.symm
  -- a byte is read, or the end
  have hlt : post.body.length - (take io bytes 1).got.length + (!(take io bytes 1).eof).toNat <
      post.body.length - io.got.length + (!io.eof).toNat := by
    have hle := congrArg List.length (body_of_posting hp' hphase)
    cases bytes <;> simp [take, heof] at hle ⊢
    omega
  obtain ⟨as, u, io', hrun, hend⟩ :=
    read_all (wf_step hwf hst) (noPacket_step hno hcond hst) hmode hp' hphase
  exact ⟨_, u, io', Run.append (.single ⟨1, rfl⟩ hst) hrun, hend⟩
termination_by post.body.length - io.got.length + (!io.eof).toNat
decreasing_by exact hlt

theorem exact_of_joined (hwf : s.reg.WF) (hno : s.NoPacket sid)
    (hmode : config.mode.allowsStreamUp = true) (hj : Joined sid i (s.reg.uplink sid)) :
    s.Exact config sid i := by
  have hpost {k : ℕ} {post : Post} (hk : s.reg.posts[k]? = some post) (hsid : post.sid = sid) :
      (s.reg.uplink sid).post k = some post := post_uplink.mpr ⟨hk, hsid⟩
  obtain ⟨c, ref, hup⟩ | ⟨k, post, cell, io, hp⟩ := hj
  · have hnone : ¬ s.reg.Finished sid := by
      rw [finished_iff, hup]
      rintro ⟨k, post, ⟨⟩, -⟩
    refine ⟨⟨_, (io_uplink.mp (by rw [hup]; exact only_self)).1, List.nil_prefix, by simp⟩,
      fun h => absurd h hnone, fun k post chunk hk hsid _ => ?_⟩
    have hk := hpost hk hsid
    rw [hup] at hk
    cases hk
  · have honly {k' : ℕ} {post' : Post} (h : (s.reg.uplink sid).post k' = some post') :
        k' = k ∧ post = post' := by
      rw [hp.eq] at h
      exact only_eq_some.mp h
    have hbody : s.reg.uploaded sid = post.body := uploaded_of_only (by rw [hp.eq])
    refine ⟨⟨io, (io_uplink.mp (io_of_posting hp)).1, ?_, fun h => ?_⟩, fun h => ?_, ?_⟩
    · rw [hbody, ← hp.carries.flow, readBy, Option.elim_some, List.append_assoc, List.append_assoc]
      exact List.prefix_append ..
    · have hphase := ((hp.reader io rfl).eof h).1
      exact ⟨finished_iff.mpr ⟨k, post, by rw [hp.eq]; exact only_self, hphase⟩,
        (got_of_eof hp h).trans hbody.symm⟩
    · obtain ⟨k', post', hk, hphase⟩ := finished_iff.mp h
      obtain ⟨-, rfl⟩ := honly hk
      rw [hbody]
      exact read_all hwf hno hmode hp hphase
    · intro k' post' chunk hk hsid hsending
      obtain ⟨rfl, rfl⟩ := honly (hpost hk hsid)
      exact moves_of_posting hp hsending

theorem eq_of_blocked (hblocked : ∀ n, s.step config (.read i n) = none)
    (hrun : Run (step config) (Reads i) s as t) : t = s := by
  refine hrun.invariant (I := fun u => u = s) ?_ rfl
  rintro u a v rfl ⟨n, rfl⟩ hst
  rw [hblocked n] at hst
  cases hst

theorem session_run {P : Uplink → Prop} (hmode : config.mode.allowsStreamUp = true)
    (hstep : ∀ {u u'}, P u → UplinkStep sid u u' → P u')
    (hs : s.reg.WF ∧ s.NoPacket sid ∧ P (s.reg.uplink sid))
    (hrun : Run (step config) (Undisturbed config sid) s as t) :
    t.reg.WF ∧ t.NoPacket sid ∧ P (t.reg.uplink sid) := by
  refine hrun.invariant (I := fun t => t.reg.WF ∧ t.NoPacket sid ∧ P (t.reg.uplink sid)) ?_ hs
  rintro s a t ⟨hwf, hno, hp⟩ hcond hst
  exact ⟨wf_step hwf hst, noPacket_step hno hcond hst,
    hstep hp (uplinkStep_of_step hwf hno hmode hcond hst)⟩

/-- A session with one `GET` and one `POST`, both valid, in any order and among any other
    requests: the reader that the `GET` hands over yields exactly the body of the `POST` and
    then the end, if and only if the `POST` had not ended when the `GET` came. -/
theorem stream_up_exact_iff (hmode : config.mode.allowsStreamUp = true)
    (hrun : Run (step config) (Undisturbed config sid) new as s)
    (hroute : route config req = .streamUp sid) (hget : req.method = .get)
    (hreport : s.canReport c = true) (hst : s.step config (.request c req random) = some t) :
    (∀ bs u, Run (step config) (Undisturbed config sid) t bs u →
      u.Exact config sid s.reg.ios.length) ↔ ¬ s.reg.Finished sid := by
  obtain ⟨hwf, hno, hw⟩ := session_run (P := Waiting sid s.reg.ios.length) hmode Waiting.step
    ⟨.new, by simp [NoPacket, new], .inl rfl⟩ hrun
  obtain ⟨hpackets, hup⟩ := uplink_get hroute hget hmode hreport (uploadRx_of_waiting hw) hst
  constructor
  · intro hexact hfinished
    have hposts : (t.reg.uplink sid).post = (s.reg.uplink sid).post := by
      rw [hup]
      simp [uplink, takeRx, opened, modifyCell]
    have hfinished' : t.reg.Finished sid := by
      rw [finished_iff, hposts]
      exact finished_iff.mp hfinished
    obtain ⟨bs, u, io, hreads, hio, -, heof⟩ := (hexact [] t (.nil t)).ends hfinished'
    obtain rfl := eq_of_blocked (blocked_of_get hw hfinished hup) hreads
    have hfresh : (u.reg.uplink sid).io s.reg.ios.length =
        some ⟨c, .upload sid (s.refOf sid), true, [], [], false⟩ := by
      rw [hup]
      exact Function.update_self ..
    rw [(io_uplink.mp hfresh).1] at hio
    cases hio
    cases heof
  · intro hunfinished bs u hrun'
    obtain ⟨hwf', hno', hj⟩ := session_run hmode Joined.step
      ⟨wf_step hwf hst, by rwa [NoPacket, hpackets], joined_of_get hw hunfinished hup⟩ hrun'
    exact exact_of_joined hwf' hno' hmode hj

theorem stream_up_exact_overlapping :
    ∃ s t : XhttpServer, Run (step .auto) (Undisturbed .auto "a") new
        [.accept, .accept, .request 0 (.plain .post "/xhttp/a") 0, .postRead 0 (some [7])] s ∧
      s.step .auto (.request 1 (.plain .get "/xhttp/a") 0) = some t ∧
      ∀ bs u, Run (step .auto) (Undisturbed .auto "a") t bs u → u.Exact .auto "a" 0 := by
  have hrun : Run (step .auto) (Undisturbed .auto "a") new [.accept, .accept,
      .request 0 (.plain .post "/xhttp/a") 0, .postRead 0 (some [7])] _ :=
    exec_run (fun _ _ h => h) rfl
  have hiff := stream_up_exact_iff rfl hrun (by rfl) (by rfl) (by rfl)
    (rfl : XhttpServer.step .auto _ (.request 1 (.plain .get "/xhttp/a") 0) = _)
  refine ⟨_, _, hrun, rfl, hiff.mpr ?_⟩
  rintro ⟨post, hmem, -, hphase⟩
  cases List.mem_singleton.mp hmem
  cases hphase

theorem stream_up_lost :
    ∃ s t : XhttpServer, Run (step .auto) (Undisturbed .auto "a") new
        [.accept, .accept, .request 0 (.plain .post "/xhttp/a") 0, .postRead 0 (some [7]),
          .postSent 0, .postRead 0 none] s ∧
      s.reg.uploaded "a" = [7] ∧
      s.step .auto (.request 1 (.plain .get "/xhttp/a") 0) = some t ∧
      (t.answers.map fun answer => answer.response.status) = [OK, OK] ∧
      (t.conns[1]?).map HttpConn.result = some (some (.upgraded 0)) ∧
      (t.reg.ios[0]?).map Io.got = some [] ∧
      ∀ n, t.step .auto (.read 0 n) = none := by
  exact ⟨_, _, exec_run (fun _ _ h => h) rfl, rfl, rfl, rfl, rfl, rfl, fun _ => rfl⟩

end XhttpServer

end SkadiCore.Xhttp
