import SkadiCore.Common.Picked
import SkadiCore.Xhttp.Server

/-!
# What belongs to one XHTTP session

The registry, the tasks of the `POST`s and the `XhttpIo`s refer to sessions of their own id
(`WF`), so that a request for one id leaves everything of another id as it is.

* `Sessions.uplink`: everything of one id. Operations for other ids do not show in it.
* `UplinkStep`, `uplinkStep_of_step`: everything the server does to a session whose only
  requests are one `POST` and one `GET`, the `GET` apart.
-/

namespace SkadiCore.Xhttp

def Source.sid : Source → Option String
  | .body => none
  | .upload sid _ => some sid

namespace Sessions

variable {r r' : Sessions} {k i n ref ref' : ℕ} {sid sid' : String} {post post' : Post}
  {io io' : Io} {f : Cell → Cell}

/-! ## References -/

def sidAt (r : Sessions) (ref : ℕ) : Option String := r.cells[ref]?.map Cell.sid

structure WF (r : Sessions) : Prop where
  entry : ∀ sid ref, r.registry.lookup sid = some ref → r.sidAt ref = some sid
  post : ∀ post ∈ r.posts, r.sidAt post.ref = some post.sid
  io : ∀ io ∈ r.ios, ∀ sid ref, io.source = .upload sid ref → r.sidAt ref = some sid

theorem sidAt_eq_some :
    r.sidAt ref = some sid ↔ ∃ cell, r.cells[ref]? = some cell ∧ cell.sid = sid :=
  Option.map_eq_some_iff

theorem sidAt_modifyCell (hf : ∀ cell, (f cell).sid = cell.sid) :
    (r.modifyCell ref f).sidAt = r.sidAt := by
  funext j
  simp only [sidAt, modifyCell, List.getElem?_modify]
  split_ifs
  · simp [Function.comp_def, hf]
  · simp

theorem sidAt_getOrCreate (h : r.sidAt ref = some sid') :
    (r.getOrCreate sid).1.sidAt ref = some sid' := by
  unfold getOrCreate
  split
  · exact h
  · obtain ⟨cell, hcell, hsid⟩ := sidAt_eq_some.mp h
    have hlt := (List.getElem?_eq_some_iff.mp hcell).1
    exact sidAt_eq_some.mpr ⟨cell, by simpa [List.getElem?_append_left hlt] using hcell, hsid⟩

theorem WF.sidAt_opened (hwf : r.WF) (sid : String) :
    (r.getOrCreate sid).1.sidAt (r.getOrCreate sid).2 = some sid := by
  unfold getOrCreate
  split
  · exact hwf.entry sid _ ‹_›
  · simp [sidAt, Cell.new]

theorem WF.new : Sessions.new.WF :=
  ⟨by simp [Sessions.new], by simp [Sessions.new], by simp [Sessions.new]⟩

variable (hwf : r.WF)
include hwf

theorem WF.getOrCreate (sid : String) : (r.getOrCreate sid).1.WF := by
  refine ⟨fun sid' ref href => ?_, ?_, ?_⟩
  · have hopened := hwf.sidAt_opened sid
    by_cases heq : sid' = sid
    · subst heq
      unfold Sessions.getOrCreate at href hopened ⊢
      split at href
      · exact hwf.entry _ _ href
      · rename_i hnone
        simp only [hnone, AList.lookup_insert, Option.some.injEq] at href hopened ⊢
        rwa [← href]
    · refine sidAt_getOrCreate (hwf.entry sid' ref ?_)
      unfold Sessions.getOrCreate at href
      split at href
      · exact href
      · simpa [AList.lookup_insert_ne heq] using href
  · intro post hpost
    exact sidAt_getOrCreate (hwf.post post (by simpa using hpost))
  · intro io hio sid' ref hsource
    exact sidAt_getOrCreate (hwf.io io (by simpa using hio) sid' ref hsource)

theorem WF.modifyCell (hf : ∀ cell, (f cell).sid = cell.sid) :
    (r.modifyCell ref f).WF := by
  refine ⟨?_, ?_, ?_⟩ <;> rw [sidAt_modifyCell hf]
  · exact hwf.entry
  · exact hwf.post
  · exact hwf.io

theorem WF.remove (sid : String) : (r.remove sid).WF := by
  refine ⟨fun sid' ref href => ?_, hwf.post, hwf.io⟩
  by_cases heq : sid' = sid
  · subst heq
    simp [Sessions.remove] at href
  · exact hwf.entry sid' ref (by simpa [Sessions.remove, AList.lookup_erase_ne heq] using href)

theorem WF.addPost (h : r.sidAt post.ref = some post.sid) : (r.addPost post).WF := by
  refine ⟨hwf.entry, fun post' hpost => ?_, hwf.io⟩
  obtain hmem | hmem := List.mem_append.mp hpost
  · exact hwf.post post' hmem
  · obtain rfl := List.mem_singleton.mp hmem
    exact h

theorem WF.setPost (hk : r.posts[k]? = some post) (href : post'.ref = post.ref)
    (hsid : post'.sid = post.sid) : (r.setPost k post').WF := by
  refine ⟨hwf.entry, fun p hp => ?_, hwf.io⟩
  obtain hmem | rfl := List.mem_or_eq_of_mem_set hp
  · exact hwf.post p hmem
  · rw [href, hsid]
    exact hwf.post post (List.mem_of_getElem? hk)

theorem WF.setIo (hi : r.ios[i]? = some io) (hsource : io'.source = io.source) :
    (r.setIo i io').WF := by
  refine ⟨hwf.entry, hwf.post, fun x hx sid ref hupload => ?_⟩
  obtain hmem | rfl := List.mem_or_eq_of_mem_set hx
  · exact hwf.io x hmem sid ref hupload
  · exact hwf.io io (List.mem_of_getElem? hi) sid ref (hsource ▸ hupload)

theorem WF.closeSource (source : Source) : (r.closeSource source).WF := by
  cases source with
  | body => exact hwf
  | upload sid ref => exact hwf.modifyCell fun _ => rfl

theorem WF.addIo (c : ℕ) (source : Source) (held : Bool)
    (h : ∀ sid ref, source = .upload sid ref → r.sidAt ref = some sid) :
    (r.addIo c source held).WF := by
  have hadd : WF { r with ios := r.ios ++ [⟨c, source, held, [], [], false⟩] } := by
    refine ⟨hwf.entry, hwf.post, fun io hio sid ref hsource => ?_⟩
    obtain hmem | hmem := List.mem_append.mp hio
    · exact hwf.io io hmem sid ref hsource
    · obtain rfl := List.mem_singleton.mp hmem
      exact h sid ref hsource
  unfold Sessions.addIo
  dsimp only
  split_ifs
  · exact hadd
  · exact hadd.closeSource source

theorem WF.postRead {chunk : Option Bytes} (hk : r.posts[k]? = some post)
    (h : r.postRead k post chunk = some r') : r'.WF := by
  obtain ⟨-, ⟨bytes, -, -, rfl⟩ | ⟨-, rfl⟩⟩ := postRead_cases h
  · exact hwf.setPost hk rfl rfl
  · have hset : (r.setPost k { post with phase := .ended }).WF := hwf.setPost hk rfl rfl
    exact hset.remove post.sid

theorem WF.postSend {chunk : Bytes} (hk : r.posts[k]? = some post)
    (h : r.postSend k post chunk = some r') : r'.WF := by
  obtain ⟨cell, -, -, rfl⟩ := postSend_cases h
  have hset : (r.setPost k { post with phase := .reading }).WF := hwf.setPost hk rfl rfl
  exact hset.modifyCell fun _ => rfl

theorem WF.readUpload (hi : r.ios[i]? = some io)
    (h : r.readUpload i n io ref = some r') : r'.WF := by
  have hset (bytes : Bytes) : (r.setIo i (take io bytes n)).WF := hwf.setIo hi rfl
  obtain ⟨-, rfl⟩ | ⟨-, cell, -, ⟨q, -, rfl⟩ | ⟨-, -, rfl⟩⟩ := readUpload_cases h
  · exact hset _
  · exact (hset _).modifyCell fun _ => rfl
  · exact hset _

end Sessions

namespace XhttpServer

variable {config : XhttpConfig} {s t : XhttpServer} {a : XhttpAct} {c : ℕ} {req : Request}

theorem sidAt_takeRx (hwf : s.reg.WF) (sid : String) :
    (s.takeRx sid).reg.sidAt (s.refOf sid) = some sid := by
  have hkeep : (s.takeRx sid).reg.sidAt = (s.opened sid).reg.sidAt :=
    Sessions.sidAt_modifyCell fun _ => rfl
  rw [hkeep]
  exact hwf.sidAt_opened sid

theorem wf_of_handled (hwf : s.reg.WF) (h : Handled config s c req t) : t.reg.WF := by
  cases h with
  | answered | refused | packet => exact hwf
  | refusedUp sid => exact hwf.getOrCreate sid
  | streamOne => exact hwf.addIo c .body _ (by simp)
  | get sid =>
    have htake : (s.takeRx sid).reg.WF := (hwf.getOrCreate sid).modifyCell fun _ => rfl
    refine htake.addIo c _ _ ?_
    rintro sid' ref ⟨⟩
    exact sidAt_takeRx hwf sid
  | post sid => exact (hwf.getOrCreate sid).addPost (hwf.sidAt_opened sid)

theorem wf_step (hwf : s.reg.WF) (h : s.step config a = some t) : t.reg.WF := by
  replace h := step_cases h
  cases h with
  | accept | httpEnds | packetGone => exact hwf
  | request c req random _ h => exact wf_of_handled hwf h
  | packetBody p chunks failed packet _ =>
    unfold handlePacketBody
    split
    · exact hwf
    · exact (hwf.getOrCreate packet.sid).modifyCell fun _ => rfl
  | postRead k chunk post reg hk h => exact hwf.postRead hk h
  | postSent k chunk post reg hk _ h => exact hwf.postSend hk h
  | read i n io sid ref reg hi _ _ h => exact hwf.readUpload hi h
  | dropIo i io hi _ =>
    have hset : (s.reg.setIo i { io with held := false }).WF := hwf.setIo hi rfl
    exact hset.closeSource io.source

end XhttpServer

/-! ## What belongs to one session -/

/-- Everything of one session id: its entry in the registry, the sessions created for it,
    the tasks of its `POST`s and the `XhttpIo`s of its `GET`s. -/
@[ext]
structure Uplink where
  entry : Option ℕ
  cell : ℕ → Option Cell
  post : ℕ → Option Post
  io : ℕ → Option Io

namespace Sessions

variable {r r' : Sessions} {k i n ref ref' : ℕ} {sid sid' : String} {cell : Cell}
  {post post' : Post} {io io' : Io} {f : Cell → Cell} {source : Source}

def uplink (r : Sessions) (sid : String) : Uplink where
  entry := r.registry.lookup sid
  cell := picked (fun cell => cell.sid = sid) r.cells
  post := picked (fun post => post.sid = sid) r.posts
  io := picked (fun io => io.source.sid = some sid) r.ios

theorem cell_uplink : (r.uplink sid).cell ref = some cell ↔
    r.cells[ref]? = some cell ∧ cell.sid = sid := by
  simp [uplink, picked_eq_some]

theorem post_uplink : (r.uplink sid).post k = some post ↔
    r.posts[k]? = some post ∧ post.sid = sid := by
  simp [uplink, picked_eq_some]

theorem io_uplink : (r.uplink sid).io i = some io ↔
    r.ios[i]? = some io ∧ io.source.sid = some sid := by
  simp [uplink, picked_eq_some]

theorem uplink_modifyCell (hcell : r.cells[ref]? = some cell) (hf : (f cell).sid = cell.sid) :
    (r.modifyCell ref f).uplink sid =
      if cell.sid = sid then
        { r.uplink sid with cell := Function.update (r.uplink sid).cell ref (some (f cell)) }
      else r.uplink sid := by
  split_ifs with h <;>
    exact Uplink.ext rfl ((picked_modify hcell (by simp [hf])).trans (by simp [h, uplink])) rfl rfl

theorem uplink_addPost : (r.addPost post).uplink sid =
    if post.sid = sid then
      { r.uplink sid with post := Function.update (r.uplink sid).post r.posts.length (some post) }
    else r.uplink sid := by
  split_ifs with h <;> exact Uplink.ext rfl rfl (picked_append.trans (by simp [h, uplink])) rfl

theorem uplink_setPost (hk : r.posts[k]? = some post) (hsid : post'.sid = post.sid) :
    (r.setPost k post').uplink sid =
      if post.sid = sid then
        { r.uplink sid with post := Function.update (r.uplink sid).post k (some post') }
      else r.uplink sid := by
  split_ifs with h <;>
    exact Uplink.ext rfl rfl ((picked_set hk (by simp [hsid])).trans (by simp [h, uplink])) rfl

theorem uplink_setIo (hi : r.ios[i]? = some io) (hsource : io'.source = io.source) :
    (r.setIo i io').uplink sid =
      if io.source.sid = some sid then
        { r.uplink sid with io := Function.update (r.uplink sid).io i (some io') }
      else r.uplink sid := by
  split_ifs with h <;>
    exact Uplink.ext rfl rfl rfl ((picked_set hi (by simp [hsource])).trans (by simp [h, uplink]))

theorem uplink_remove : (r.remove sid').uplink sid =
    if sid' = sid then { r.uplink sid with entry := none } else r.uplink sid := by
  split_ifs with h
  · exact Uplink.ext (by simp [uplink, remove, h]) rfl rfl rfl
  · exact Uplink.ext (AList.lookup_erase_ne (Ne.symm h)) rfl rfl rfl

theorem getOrCreate_found (h : (r.uplink sid).entry = some ref) : r.getOrCreate sid = (r, ref) := by
  have hlookup : r.registry.lookup sid = some ref := h
  simp [getOrCreate, hlookup]

theorem uplink_getOrCreate (h : (r.uplink sid).entry = none) :
    (r.getOrCreate sid).2 = r.cells.length ∧ (r.getOrCreate sid).1.uplink sid =
      { r.uplink sid with
        entry := some r.cells.length
        cell := Function.update (r.uplink sid).cell r.cells.length (some (.new sid)) } := by
  have hlookup : r.registry.lookup sid = none := h
  simp only [getOrCreate, hlookup, true_and]
  exact Uplink.ext (AList.lookup_insert _) (picked_append.trans (by simp [Cell.new, uplink]))
    rfl rfl

/-! ### Operations on other sessions -/

theorem uplink_getOrCreate_ne (hne : sid' ≠ sid) :
    (r.getOrCreate sid').1.uplink sid = r.uplink sid := by
  unfold getOrCreate
  split
  · rfl
  · exact Uplink.ext (AList.lookup_insert_ne hne.symm)
      (picked_append.trans (by simp [Cell.new, hne, uplink])) rfl rfl

theorem uplink_modifyCell_ne (hat : r.sidAt ref = some sid') (hne : sid' ≠ sid)
    (hf : ∀ cell, (f cell).sid = cell.sid) :
    (r.modifyCell ref f).uplink sid = r.uplink sid := by
  obtain ⟨cell, hcell, rfl⟩ := sidAt_eq_some.mp hat
  rw [uplink_modifyCell hcell (hf cell), if_neg hne]

theorem uplink_modifyOpened_ne (hwf : r.WF) (hne : sid' ≠ sid)
    (hf : ∀ cell, (f cell).sid = cell.sid) :
    ((r.getOrCreate sid').1.modifyCell (r.getOrCreate sid').2 f).uplink sid = r.uplink sid :=
  (uplink_modifyCell_ne (hwf.sidAt_opened sid') hne hf).trans (uplink_getOrCreate_ne hne)

theorem uplink_closeSource_ne (hwf : ∀ sid ref, source = .upload sid ref → r.sidAt ref = some sid)
    (hne : source.sid ≠ some sid) : (r.closeSource source).uplink sid = r.uplink sid := by
  cases source with
  | body => rfl
  | upload sid' ref =>
    exact uplink_modifyCell_ne (hwf sid' ref rfl) (fun h => hne (h ▸ rfl)) fun _ => rfl

theorem uplink_addIo_ne {c : ℕ} {held : Bool}
    (hwf : ∀ sid ref, source = .upload sid ref → r.sidAt ref = some sid)
    (hne : source.sid ≠ some sid) : (r.addIo c source held).uplink sid = r.uplink sid := by
  have hadd : uplink { r with ios := r.ios ++ [⟨c, source, held, [], [], false⟩] } sid =
      r.uplink sid := Uplink.ext rfl rfl rfl (picked_append.trans (by simp [hne, uplink]))
  unfold addIo
  dsimp only
  split_ifs
  · exact hadd
  · rw [← hadd]
    exact uplink_closeSource_ne hwf hne

/-! ### References to the session -/

theorem referred_eq_false (hwf : r.WF) (hat : r.sidAt ref = some sid)
    (hentry : (r.uplink sid).entry ≠ some ref)
    (hpost : ∀ k post, (r.uplink sid).post k = some post → post.phase = .ended) :
    r.referred ref = false := by
  simp only [referred, Bool.or_eq_false_iff, List.any_eq_false, decide_eq_true_eq]
  constructor
  · rintro ⟨sid', ref'⟩ hmem rfl
    have hlookup : r.registry.lookup sid' = some ref' := AList.mem_lookup_iff.mpr hmem
    obtain rfl : sid' = sid := Option.some.inj ((hwf.entry sid' ref' hlookup).symm.trans hat)
    exact hentry hlookup
  · rintro post hmem ⟨rfl, hphase⟩
    obtain ⟨k, hk⟩ := List.mem_iff_getElem?.mp hmem
    have hsid : post.sid = sid := Option.some.inj ((hwf.post post hmem).symm.trans hat)
    exact hphase (hpost k post (post_uplink.mpr ⟨hk, hsid⟩))

theorem not_referred (sid : String) (h : r.referred ref = false) :
    (r.uplink sid).entry ≠ some ref ∧
      ∀ k post, (r.uplink sid).post k = some post → post.ref = ref → post.phase = .ended := by
  simp only [referred, Bool.or_eq_false_iff, List.any_eq_false, decide_eq_true_eq] at h
  refine ⟨fun hentry => h.1 ⟨sid, ref⟩ (AList.mem_lookup_iff.mp hentry) rfl, ?_⟩
  intro k post hk href
  by_contra hphase
  exact h.2 post (List.mem_of_getElem? (post_uplink.mp hk).1) ⟨href, hphase⟩

end Sessions

/-! ## Steps of one session -/

inductive UplinkStep (sid : String) (u : Uplink) : Uplink → Prop
  | other : UplinkStep sid u u
  | found (c k ref : ℕ) : (∀ k, u.post k = none) → u.entry = some ref →
      UplinkStep sid u
        { u with post := Function.update u.post k (some ⟨c, sid, ref, .reading, []⟩) }
  | created (c k ref : ℕ) : (∀ k, u.post k = none) → u.entry = none →
      UplinkStep sid u
        { u with
          entry := some ref
          cell := Function.update u.cell ref (some (.new sid))
          post := Function.update u.post k (some ⟨c, sid, ref, .reading, []⟩) }
  | chunk (k : ℕ) (post : Post) (bytes : Bytes) : u.post k = some post →
      post.phase = .reading → 0 < bytes.length →
      UplinkStep sid u
        { u with
          post := Function.update u.post k
            (some { post with phase := .sending bytes, body := post.body ++ bytes }) }
  | ended (k : ℕ) (post : Post) : u.post k = some post → post.phase = .reading →
      UplinkStep sid u
        { u with
          entry := none
          post := Function.update u.post k (some { post with phase := .ended }) }
  | sent (k : ℕ) (post : Post) (bytes : Bytes) (cell : Cell) : u.post k = some post →
      post.phase = .sending bytes → u.cell post.ref = some cell → cell.queue.free = true →
      UplinkStep sid u
        { u with
          cell := Function.update u.cell post.ref
            (some (cell.setQueue (cell.queue.offer bytes)))
          post := Function.update u.post k (some { post with phase := .reading }) }
  | buffered (i n : ℕ) (io : Io) : u.io i = some io → io.buf ≠ [] →
      UplinkStep sid u
        { u with io := Function.update u.io i (some (Sessions.take io io.buf n)) }
  | received (i n ref : ℕ) (io : Io) (cell : Cell) (q : UploadQueue) : u.io i = some io →
      io.buf = [] → io.source = .upload sid ref → u.cell ref = some cell →
      cell.queue.recv = some q →
      UplinkStep sid u
        { u with
          cell := Function.update u.cell ref (some (cell.setQueue q))
          io := Function.update u.io i
            (some (Sessions.take io (cell.queue.queue.headD []) n)) }
  | finished (i n ref : ℕ) (io : Io) (cell : Cell) : u.io i = some io → io.buf = [] →
      io.source = .upload sid ref → u.cell ref = some cell → cell.queue.recv = none →
      u.entry ≠ some ref →
      (∀ k post, u.post k = some post → post.ref = ref → post.phase = .ended) →
      UplinkStep sid u { u with io := Function.update u.io i (some (Sessions.take io [] n)) }

namespace Sessions

variable {r r' : Sessions} {k i n ref : ℕ} {sid : String} {post : Post} {io : Io}

theorem uplinkStep_postRead {chunk : Option Bytes} (hk : r.posts[k]? = some post)
    (h : r.postRead k post chunk = some r') : UplinkStep sid (r.uplink sid) (r'.uplink sid) := by
  obtain ⟨hphase, ⟨bytes, -, hlen, rfl⟩ | ⟨-, rfl⟩⟩ := postRead_cases h
  · rw [uplink_setPost hk (by rfl)]
    split_ifs with hsid
    · exact .chunk k post bytes (post_uplink.mpr ⟨hk, hsid⟩) hphase hlen
    · exact .other
  · rw [uplink_remove, uplink_setPost hk (by rfl)]
    split_ifs with hsid
    · exact .ended k post (post_uplink.mpr ⟨hk, hsid⟩) hphase
    · exact .other

theorem cell_sid {cell : Cell} (hat : r.sidAt ref = some sid) (hcell : r.cells[ref]? = some cell) :
    cell.sid = sid := by
  obtain ⟨cell', hcell', hsid⟩ := sidAt_eq_some.mp hat
  rwa [Option.some.inj (hcell.symm.trans hcell')]

theorem uplinkStep_postSend {chunk : Bytes} (hwf : r.WF) (hk : r.posts[k]? = some post)
    (hphase : post.phase = .sending chunk) (h : r.postSend k post chunk = some r') :
    UplinkStep sid (r.uplink sid) (r'.uplink sid) := by
  obtain ⟨cell, hcell, hfree, rfl⟩ := postSend_cases h
  have hown := cell_sid (hwf.post post (List.mem_of_getElem? hk)) hcell
  rw [uplink_modifyCell (by exact hcell) (by rfl), uplink_setPost hk (by rfl), hown]
  split_ifs with hsid
  · exact .sent k post chunk cell (post_uplink.mpr ⟨hk, hsid⟩) hphase
      (cell_uplink.mpr ⟨hcell, hown.trans hsid⟩) hfree
  · exact .other

theorem uplinkStep_readUpload {sid' : String} (hwf : r.WF) (hi : r.ios[i]? = some io)
    (hsource : io.source = .upload sid' ref) (h : r.readUpload i n io ref = some r') :
    UplinkStep sid (r.uplink sid) (r'.uplink sid) := by
  have hset (bytes : Bytes) : (r.setIo i (take io bytes n)).uplink sid = if sid' = sid then
      { r.uplink sid with io := Function.update (r.uplink sid).io i (some (take io bytes n)) }
      else r.uplink sid := by
    rw [uplink_setIo hi (by rfl), hsource]
    exact if_congr Option.some_inj rfl rfl
  have hio (hsid : sid' = sid) : (r.uplink sid).io i = some io :=
    io_uplink.mpr ⟨hi, by rw [hsource, ← hsid]; rfl⟩
  obtain ⟨hbuf, rfl⟩ | ⟨hbuf, cell, hcell, hor⟩ := readUpload_cases h
  · rw [hset]
    split_ifs with hsid
    · exact .buffered i n io (hio hsid) hbuf
    · exact .other
  have hown := cell_sid (hwf.io io (List.mem_of_getElem? hi) sid' ref hsource) hcell
  obtain ⟨q, hq, rfl⟩ | ⟨hq, href, rfl⟩ := hor
  · rw [uplink_modifyCell (by exact hcell) (by rfl), hset, hown]
    split_ifs with hsid
    · exact .received i n ref io cell q (hio hsid) hbuf (hsid ▸ hsource)
        (cell_uplink.mpr ⟨hcell, hown.trans hsid⟩) hq
    · exact .other
  · rw [hset]
    split_ifs with hsid
    · obtain ⟨hentry, hposts⟩ := not_referred sid href
      exact .finished i n ref io cell (hio hsid) hbuf (hsid ▸ hsource)
        (cell_uplink.mpr ⟨hcell, hown.trans hsid⟩) hq hentry hposts
    · exact .other

end Sessions

namespace XhttpServer

variable {config : XhttpConfig} {s t : XhttpServer} {a : XhttpAct} {as : List XhttpAct}
  {sid : String} {c : ℕ} {req : Request}

def undisturbed (config : XhttpConfig) (sid : String) (s : XhttpServer) : XhttpAct → Bool
  | .request _ req _ =>
    match route config req with
    | .streamUp sid' =>
      sid' ≠ sid || (req.method = .post && s.reg.posts.all fun post => post.sid ≠ sid)
    | .packetUp sid' _ => sid' ≠ sid
    | _ => true
  | .dropIo i => (s.reg.ios[i]?).all fun io => io.source.sid ≠ some sid
  | _ => true

/-- The session gets one POST at most, no GET and no packet, and its stream is not dropped. -/
def Undisturbed (config : XhttpConfig) (sid : String) (s : XhttpServer) (a : XhttpAct) : Prop :=
  s.undisturbed config sid a = true

def NoPacket (sid : String) (s : XhttpServer) : Prop :=
  ∀ packet, some packet ∈ s.packets → packet.sid ≠ sid

theorem undisturbed_streamUp {random : UInt32} {sid' : String}
    (hcond : s.Undisturbed config sid (.request c req random))
    (hroute : route config req = .streamUp sid') :
    sid' ≠ sid ∨ (req.method = .post ∧ ∀ k, (s.reg.uplink sid).post k = none) := by
  simp only [Undisturbed, undisturbed, hroute, Bool.or_eq_true, Bool.and_eq_true,
    decide_eq_true_eq, List.all_eq_true] at hcond
  refine hcond.imp_right fun ⟨hmethod, hall⟩ => ⟨hmethod, fun k => ?_⟩
  refine Option.eq_none_iff_forall_ne_some.mpr fun post hpost => ?_
  obtain ⟨hk, hsid⟩ := Sessions.post_uplink.mp hpost
  exact hall post (List.mem_of_getElem? hk) hsid

theorem noPacket_step (hno : s.NoPacket sid) (hcond : s.Undisturbed config sid a)
    (h : s.step config a = some t) : t.NoPacket sid := by
  have hset (p : ℕ) : NoPacket sid { s with packets := s.packets.set p none } := by
    intro packet hmem
    obtain hmem | heq := List.mem_or_eq_of_mem_set hmem
    · exact hno packet hmem
    · cases heq
  replace h := step_cases h
  cases h with
  | accept | httpEnds | postRead | postSent | read | dropIo => exact hno
  | request c req random _ h =>
    cases h with
    | answered | refused | refusedUp | streamOne | get | post => exact hno
    | packet packet seq hroute _ =>
      intro packet' hmem
      obtain hmem | hmem := List.mem_append.mp hmem
      · exact hno packet' hmem
      · obtain rfl : packet' = packet := by simpa using hmem
        simpa [Undisturbed, undisturbed, hroute] using hcond
  | packetBody p chunks failed packet _ =>
    unfold handlePacketBody
    split <;> exact hset p
  | packetGone p packet _ => exact hset p

theorem uplinkStep_handled {random : UInt32} (hwf : s.reg.WF)
    (hmode : config.mode.allowsStreamUp = true)
    (hcond : s.Undisturbed config sid (.request c req random)) (h : Handled config s c req t) :
    UplinkStep sid (s.reg.uplink sid) (t.reg.uplink sid) := by
  cases h with
  | answered | refused | packet => exact .other
  | refusedUp sid' method status _ hroute hmethod hrefused =>
    obtain hne | ⟨hpost, -⟩ := undisturbed_streamUp hcond hroute
    · have hsame : (s.opened sid').reg.uplink sid = s.reg.uplink sid :=
        Sessions.uplink_getOrCreate_ne hne
      simpa [respond, hsame] using UplinkStep.other
    · -- the mode allows the `POST`, so it is not refused
      rw [hmethod.symm.trans hpost] at hrefused
      exact absurd (hmode.symm.trans hrefused) (by simp)
  | streamOne random' _ =>
    have hsame : (s.upgrade c .body).reg.uplink sid = s.reg.uplink sid :=
      Sessions.uplink_addIo_ne (by simp) (by simp [Source.sid])
    simpa [respond, hsame] using UplinkStep.other
  | get sid' random' hroute hmethod _ =>
    obtain hne | ⟨hpost, -⟩ := undisturbed_streamUp hcond hroute
    · have htake : (s.takeRx sid').reg.uplink sid = s.reg.uplink sid :=
        Sessions.uplink_modifyOpened_ne hwf hne fun _ => rfl
      have hsame : ((s.takeRx sid').upgrade c (.upload sid' (s.refOf sid'))).reg.uplink sid =
          (s.takeRx sid').reg.uplink sid := by
        refine Sessions.uplink_addIo_ne ?_ (by simpa [Source.sid] using hne)
        rintro sid'' ref ⟨⟩
        exact sidAt_takeRx hwf sid'
      simpa [respond, hsame, htake] using UplinkStep.other
    · rw [hmethod] at hpost
      cases hpost
  | post sid' hroute _ =>
    show UplinkStep sid (s.reg.uplink sid)
      (((s.reg.getOrCreate sid').1.addPost ⟨c, sid', s.refOf sid', .reading, []⟩).uplink sid)
    obtain hne | ⟨-, hnone⟩ := undisturbed_streamUp hcond hroute
    · rw [Sessions.uplink_addPost, if_neg hne, Sessions.uplink_getOrCreate_ne hne]
      exact .other
    · by_cases hne : sid' = sid
      · subst hne
        rw [Sessions.uplink_addPost, if_pos rfl]
        cases hentry : (s.reg.uplink sid').entry with
        | some ref =>
          rw [refOf, Sessions.getOrCreate_found hentry]
          exact .found c _ ref hnone hentry
        | none =>
          obtain ⟨href, hup⟩ := Sessions.uplink_getOrCreate hentry
          rw [refOf, href, hup]
          exact .created c _ _ hnone hentry
      · rw [Sessions.uplink_addPost, if_neg hne, Sessions.uplink_getOrCreate_ne hne]
        exact .other

theorem uplinkStep_of_step (hwf : s.reg.WF) (hno : s.NoPacket sid)
    (hmode : config.mode.allowsStreamUp = true) (hcond : s.Undisturbed config sid a)
    (h : s.step config a = some t) : UplinkStep sid (s.reg.uplink sid) (t.reg.uplink sid) := by
  replace h := step_cases h
  cases h with
  | accept | httpEnds | packetGone => exact .other
  | request c req random _ h => exact uplinkStep_handled hwf hmode hcond h
  | packetBody p chunks failed packet hp =>
    have hne : packet.sid ≠ sid := hno packet (List.mem_of_getElem? hp)
    unfold handlePacketBody
    split
    · exact .other
    · rename_i payload _
      have hsame : ((s.reg.getOrCreate packet.sid).1.modifyCell (s.reg.getOrCreate packet.sid).2
          fun cell => { cell with session := cell.session.pushPacket packet.seq payload }).uplink
            sid = s.reg.uplink sid :=
        Sessions.uplink_modifyOpened_ne hwf hne fun _ => rfl
      simpa [respond, sendUpgrade, hsame] using UplinkStep.other
  | postRead k chunk post reg hk h => exact Sessions.uplinkStep_postRead hk h
  | postSent k chunk post reg hk hphase h => exact Sessions.uplinkStep_postSend hwf hk hphase h
  | read i n io sid' ref reg hi _ hsource h => exact Sessions.uplinkStep_readUpload hwf hi hsource h
  | dropIo i io hi _ =>
    have hne : io.source.sid ≠ some sid := by simpa [Undisturbed, undisturbed, hi] using hcond
    have hset : (s.reg.setIo i { io with held := false }).uplink sid = s.reg.uplink sid := by
      rw [Sessions.uplink_setIo hi (by rfl), if_neg hne]
    have hclose : ((s.reg.setIo i { io with held := false }).closeSource io.source).uplink sid =
        (s.reg.setIo i { io with held := false }).uplink sid :=
      Sessions.uplink_closeSource_ne (hwf.io io (List.mem_of_getElem? hi)) hne
    simpa [hclose, hset] using UplinkStep.other

end XhttpServer

end SkadiCore.Xhttp
