import SkadiCore.Socks5.Negotiate
import SkadiCore.Vless.Config

/-!
# The user store

Model of `UserStore` (`crates/skadi-server/src/store.rs`), which the gRPC API and the
reload on SIGHUP change. A call holds the lock, so that calls follow one another.

Users of VLESS are stored and compared by their text and authenticated by the UUID it
denotes. `UuidSet` is what the store is for: the UUIDs that were introduced and not
removed. Users of SOCKS5 are stored by their name, and `Logins` is what that part is for.
-/

namespace SkadiCore.Server

open SkadiCore.Socks5 SkadiCore.Vless

structure ProtocolConfig where
  socks5Enabled : Bool
  socks5 : Socks5Config
  vless : VlessConfig

/-- What `Config::validate` asks of the VLESS users (`skadi-config/src/lib.rs`,
    lines 788-796). -/
def ProtocolConfig.validateVless (protocol : ProtocolConfig) : Except String Unit :=
  if protocol.vless.enabled then
    if protocol.vless.users.isEmpty then
      .error "protocol.vless is enabled but no users configured"
    else
      protocol.vless.users.forM fun user =>
        match Uuid.parse user.id with
        | .ok _ => .ok ()
        | .error _ => .error s!"invalid VLESS user id: {user.id}"
  else .ok ()

structure UserStore where
  vlessEnabled : Bool
  socksEnabled : Bool
  socksAuth : AuthMethod
  socksBind : Bool
  socksUdpAssociate : Bool
  vlessUsers : List VlessUser
  socksUsers : List UserCredential

namespace UserStore

/-- `UserStore::from_protocol` (lines 25-41), and the state that `reload_from_protocol`
    (lines 44-54) stores. -/
def fromProtocol (protocol : ProtocolConfig) : UserStore :=
  { vlessEnabled := protocol.vless.enabled
    socksEnabled := protocol.socks5Enabled
    socksAuth := protocol.socks5.auth
    socksBind := protocol.socks5.bind
    socksUdpAssociate := protocol.socks5.udpAssociate
    vlessUsers := protocol.vless.users
    socksUsers := protocol.socks5.users }

/-- `UserStore::vless_config` (lines 64-70). -/
def vlessConfig (s : UserStore) : VlessConfig := ⟨s.vlessEnabled, s.vlessUsers⟩

def pushNew {α : Type} (what : String) (key : α → String) (users : List α) (user : α) :
    Except String Unit × List α :=
  if users.any fun u => key u == key user then
    (.error s!"{what} user already exists: {key user}", users)
  else (.ok (), users ++ [user])

def retainOthers {α : Type} (what : String) (key : α → String) (users : List α) (id : String) :
    Except String Unit × List α :=
  let kept := users.filter fun u => key u != id
  (if kept.length = users.length then .error s!"{what} user not found: {id}" else .ok (), kept)

def withVless (s : UserStore) (r : Except String Unit × List VlessUser) :
    Except String Unit × UserStore :=
  (r.1, { s with vlessUsers := r.2 })

def withSocks (s : UserStore) (r : Except String Unit × List UserCredential) :
    Except String Unit × UserStore :=
  (r.1, { s with socksUsers := r.2 })

/-- `UserStore::add_vless_user` (lines 99-109). -/
def addVlessUser (s : UserStore) (user : VlessUser) : Except String Unit × UserStore :=
  match Uuid.parse user.id with
  | .error e => (.error s!"invalid VLESS user id: {e.display}", s)
  | .ok _ => s.withVless (pushNew "VLESS" VlessUser.id s.vlessUsers user)

/-- `UserStore::remove_vless_user` (lines 111-119). -/
def removeVlessUser (s : UserStore) (id : String) : Except String Unit × UserStore :=
  s.withVless (retainOthers "VLESS" VlessUser.id s.vlessUsers id)

/-- `UserStore::add_socks5_user` (lines 121-139). -/
def addSocks5User (s : UserStore) (user : UserCredential) : Except String Unit × UserStore :=
  if user.username.isEmpty then (.error "SOCKS5 username must not be empty", s)
  else if user.password.isEmpty then (.error "SOCKS5 password must not be empty", s)
  else s.withSocks (pushNew "SOCKS5" UserCredential.username s.socksUsers user)

/-- `UserStore::remove_socks5_user` (lines 141-149). -/
def removeSocks5User (s : UserStore) (username : String) : Except String Unit × UserStore :=
  s.withSocks (retainOthers "SOCKS5" UserCredential.username s.socksUsers username)

end UserStore

/-! ## Calls -/

inductive Call
  | reload (protocol : ProtocolConfig)
  | addVless (user : VlessUser)
  | removeVless (id : String)
  | addSocks5 (user : UserCredential)
  | removeSocks5 (username : String)

def UserStore.call (s : UserStore) : Call → Except String Unit × UserStore
  | .reload protocol => (.ok (), .fromProtocol protocol)
  | .addVless user => s.addVlessUser user
  | .removeVless id => s.removeVlessUser id
  | .addSocks5 user => s.addSocks5User user
  | .removeSocks5 username => s.removeSocks5User username

abbrev UuidSet := Finset Uuid

/-- What a call that returned `Ok` means for the UUIDs: a reload introduces those of its
    users, an addition its own; a removal removes the one it names, in any spelling. -/
def UuidSet.call (m : UuidSet) : Call → UuidSet
  | .reload protocol => (uuids protocol.vless.users).toFinset
  | .addVless user => (user.uuid.map fun b => insert b m).getD m
  | .removeVless id => ((Uuid.parse id).toOption.map fun b => m.erase b).getD m
  | .addSocks5 _ | .removeSocks5 _ => m

structure Tracked where
  store : UserStore
  model : UuidSet

namespace Tracked

def init (protocol : ProtocolConfig) : Tracked :=
  ⟨.fromProtocol protocol, (uuids protocol.vless.users).toFinset⟩

def call (s : Tracked) (c : Call) : Tracked :=
  ⟨(s.store.call c).2, if (s.store.call c).1 = .ok () then s.model.call c else s.model⟩

def after (protocol : ProtocolConfig) (calls : List Call) : Tracked :=
  calls.foldl call (init protocol)

/-- The store accepts the UUIDs of the model, and holds each once. -/
structure Refines (s : Tracked) : Prop where
  accepts : ∀ b, (s.store.vlessConfig.authenticate b).isSome ↔ b ∈ s.model
  nodup : (uuids s.store.vlessUsers).Nodup

end Tracked

/-- The call introduces no UUID twice: the users of a reload denote different UUIDs; a
    user that is added denotes the UUID of a stored one only in the same spelling. -/
def UserStore.Fresh (s : UserStore) : Call → Prop
  | .reload protocol => (uuids protocol.vless.users).Nodup
  | .addVless user => ∀ u ∈ s.vlessUsers, ∀ b, u.uuid = some b → user.uuid = some b →
      u.id = user.id
  | _ => True

/-! ## Failed calls -/

section

variable {α : Type} {what : String} {key : α → String} {users : List α} {user : α} {id : String}

theorem pushNew_of_mem (h : ∃ u ∈ users, key u = key user) :
    UserStore.pushNew what key users user =
      (.error s!"{what} user already exists: {key user}", users) := by
  rw [UserStore.pushNew, if_pos (by simpa using h)]

theorem pushNew_of_not_mem (h : ¬ ∃ u ∈ users, key u = key user) :
    UserStore.pushNew what key users user = (.ok (), users ++ [user]) := by
  rw [UserStore.pushNew, if_neg (by simpa using h)]

theorem pushNew_error {e : String} (h : (UserStore.pushNew what key users user).1 = .error e) :
    (UserStore.pushNew what key users user).2 = users := by
  unfold UserStore.pushNew at h ⊢
  split_ifs at h ⊢
  rfl

theorem retainOthers_error {e : String}
    (h : (UserStore.retainOthers what key users id).1 = .error e) :
    (UserStore.retainOthers what key users id).2 = users := by
  simp only [UserStore.retainOthers] at h ⊢
  split_ifs at h with hlen
  exact List.filter_sublist.eq_of_length hlen

end

theorem call_error {s : UserStore} {c : Call} {e : String} (h : (s.call c).1 = .error e) :
    (s.call c).2 = s := by
  cases c with
  | reload protocol => cases h
  | addVless user =>
    simp only [UserStore.call, UserStore.addVlessUser] at h ⊢
    cases hp : Uuid.parse user.id with
    | error e' => rfl
    | ok b =>
      rw [hp] at h
      simp only [UserStore.withVless] at h ⊢
      rw [pushNew_error h]
  | removeVless id =>
    simp only [UserStore.call, UserStore.removeVlessUser, UserStore.withVless] at h ⊢
    rw [retainOthers_error h]
  | addSocks5 user =>
    simp only [UserStore.call, UserStore.addSocks5User] at h ⊢
    split_ifs at h ⊢
    · rfl
    · rfl
    · simp only [UserStore.withSocks] at h ⊢
      rw [pushNew_error h]
  | removeSocks5 username =>
    simp only [UserStore.call, UserStore.removeSocks5User, UserStore.withSocks] at h ⊢
    rw [retainOthers_error h]

/-! ## One call -/

namespace Tracked

variable {s : Tracked}

theorem refines_iff : Refines s ↔
    (∀ b, b ∈ uuids s.store.vlessUsers ↔ b ∈ s.model) ∧ (uuids s.store.vlessUsers).Nodup := by
  constructor
  · rintro ⟨haccepts, hnodup⟩
    exact ⟨fun b => (authenticate_isSome s.store.vlessConfig b).symm.trans (haccepts b), hnodup⟩
  · rintro ⟨haccepts, hnodup⟩
    exact ⟨fun b => (authenticate_isSome s.store.vlessConfig b).trans (haccepts b), hnodup⟩

theorem refines_init_iff (protocol : ProtocolConfig) :
    Refines (init protocol) ↔ (uuids protocol.vless.users).Nodup := by
  rw [refines_iff]
  simp [init, UserStore.fromProtocol]

theorem call_of_error {c : Call} {e : String} (h : (s.store.call c).1 = .error e) :
    s.call c = s := by
  rw [call, call_error h, if_neg (by rw [h]; exact fun h => by cases h)]

variable {user : VlessUser}

theorem call_addVless_of_new {b : Uuid} (hp : Uuid.parse user.id = .ok b)
    (hnew : ¬ ∃ u ∈ s.store.vlessUsers, u.id = user.id) :
    s.call (.addVless user) =
      ⟨{ s.store with vlessUsers := s.store.vlessUsers ++ [user] }, insert b s.model⟩ := by
  have hsome : user.uuid = some b := by simp [VlessUser.uuid, hp, Except.toOption]
  simp [call, UserStore.call, UserStore.addVlessUser, hp, UserStore.withVless,
    pushNew_of_not_mem hnew, UuidSet.call, hsome]

theorem fresh_addVless_iff {b : Uuid} (hsome : user.uuid = some b)
    (hnew : ¬ ∃ u ∈ s.store.vlessUsers, u.id = user.id) :
    s.store.Fresh (.addVless user) ↔ b ∉ uuids s.store.vlessUsers := by
  simp only [UserStore.Fresh, hsome, Option.some.injEq, mem_uuids, not_exists, not_and]
  refine ⟨fun h u hu hub => hnew ⟨u, hu, h u hu b hub rfl⟩, ?_⟩
  rintro h u hu b' hub rfl
  exact absurd hub (h u hu)

theorem refines_addVless_of_new (hs : Refines s) {b : Uuid} (hp : Uuid.parse user.id = .ok b)
    (hnew : ¬ ∃ u ∈ s.store.vlessUsers, u.id = user.id) :
    Refines (s.call (.addVless user)) ↔ s.store.Fresh (.addVless user) := by
  obtain ⟨haccepts, hnodup⟩ := refines_iff.mp hs
  have hsome : user.uuid = some b := by simp [VlessUser.uuid, hp, Except.toOption]
  have huuids : uuids (s.store.vlessUsers ++ [user]) = uuids s.store.vlessUsers ++ [b] := by
    simp [uuids, hsome]
  rw [refines_iff, fresh_addVless_iff hsome hnew, call_addVless_of_new hp hnew]
  simp only [huuids, List.nodup_append]
  constructor
  · rintro ⟨-, -, -, hdisj⟩ hb
    exact hdisj b hb b (by simp) rfl
  · intro hb
    refine ⟨fun b' => ?_, hnodup, by simp, ?_⟩
    · simp only [List.mem_append, haccepts, List.mem_singleton, Finset.mem_insert, or_comm]
    · rintro b' hb' c hc rfl
      exact hb (List.mem_singleton.mp hc ▸ hb')

theorem refines_addVless_iff (hs : Refines s) (user : VlessUser) :
    Refines (s.call (.addVless user)) ↔ s.store.Fresh (.addVless user) := by
  cases hp : Uuid.parse user.id with
  | error e =>
    have hnone : user.uuid = none := by simp [VlessUser.uuid, hp, Except.toOption]
    obtain ⟨e', hcall⟩ : ∃ e', (s.store.call (.addVless user)).1 = .error e' :=
      ⟨_, by simp only [UserStore.call, UserStore.addVlessUser, hp]; rfl⟩
    rw [call_of_error hcall]
    simp [UserStore.Fresh, hnone, hs]
  | ok b =>
    by_cases hdup : ∃ u ∈ s.store.vlessUsers, u.id = user.id
    · -- the text is stored already, and by the invariant no other spelling of it
      obtain ⟨e, hcall⟩ : ∃ e, (s.store.call (.addVless user)).1 = .error e :=
        ⟨_, by
          simp only [UserStore.call, UserStore.addVlessUser, hp, UserStore.withVless,
            pushNew_of_mem hdup]
          rfl⟩
      rw [call_of_error hcall]
      refine iff_of_true hs fun u hu b' hub huser => ?_
      obtain ⟨v, hv, hid⟩ := hdup
      have hvb : v.uuid = some b' := by rw [← huser, VlessUser.uuid, hid, VlessUser.uuid]
      rw [eq_of_nodup_uuids (refines_iff.mp hs).2 hu hv hub hvb, hid]
    · exact refines_addVless_of_new hs hp hdup

theorem mem_uuids_retain (hnodup : (uuids s.store.vlessUsers).Nodup) {id : String}
    (hid : ∃ u ∈ s.store.vlessUsers, u.id = id) (b : Uuid) :
    b ∈ uuids (s.store.vlessUsers.filter fun u => u.id != id) ↔
      b ∈ uuids s.store.vlessUsers ∧ (Uuid.parse id).toOption ≠ some b := by
  obtain ⟨v, hv, rfl⟩ := hid
  simp only [mem_uuids, List.mem_filter, bne_iff_ne]
  constructor
  · rintro ⟨u, ⟨hu, hne⟩, hub⟩
    refine ⟨⟨u, hu, hub⟩, fun hvb => hne ?_⟩
    rw [eq_of_nodup_uuids hnodup hu hv hub hvb]
  · rintro ⟨⟨u, hu, hub⟩, hne⟩
    refine ⟨u, ⟨hu, fun heq => hne ?_⟩, hub⟩
    rw [← heq]
    exact hub

theorem refines_removeVless (hs : Refines s) (id : String) :
    Refines (s.call (.removeVless id)) := by
  obtain ⟨haccepts, hnodup⟩ := refines_iff.mp hs
  cases hres : (s.store.call (.removeVless id)).1 with
  | error e => rwa [call_of_error hres]
  | ok =>
    have hid : ∃ u ∈ s.store.vlessUsers, u.id = id := by
      by_contra hnone
      simp only [not_exists, not_and] at hnone
      have hall : s.store.vlessUsers.filter (fun u => u.id != id) = s.store.vlessUsers :=
        List.filter_eq_self.mpr fun u hu => by simpa using hnone u hu
      simp [UserStore.call, UserStore.removeVlessUser, UserStore.withVless,
        UserStore.retainOthers, hall] at hres
    have hcall : s.call (.removeVless id) =
        ⟨{ s.store with vlessUsers := s.store.vlessUsers.filter fun u => u.id != id },
          s.model.call (.removeVless id)⟩ := by
      rw [call, if_pos hres]
      rfl
    rw [refines_iff, hcall]
    refine ⟨fun b => ?_, hnodup.sublist (List.filter_sublist.filterMap _)⟩
    rw [mem_uuids_retain hnodup hid, haccepts]
    cases hp : (Uuid.parse id).toOption with
    | none => simp [UuidSet.call, hp]
    | some c => simp [UuidSet.call, hp, and_comm, eq_comm]

theorem refines_of_vlessUsers {s' : Tracked} (hs : Refines s)
    (husers : s'.store.vlessUsers = s.store.vlessUsers) (hmodel : s'.model = s.model) :
    Refines s' := by
  rw [refines_iff, husers, hmodel]
  exact refines_iff.mp hs

theorem refines_call_iff (hs : Refines s) (c : Call) :
    Refines (s.call c) ↔ s.store.Fresh c := by
  cases c with
  | reload protocol => exact refines_init_iff protocol
  | addVless user => exact refines_addVless_iff hs user
  | removeVless id => exact iff_of_true (refines_removeVless hs id) trivial
  | addSocks5 user =>
    refine iff_of_true (refines_of_vlessUsers hs ?_ (ite_self _)) trivial
    simp only [call, UserStore.call, UserStore.addSocks5User]
    split_ifs <;> rfl
  | removeSocks5 username =>
    exact iff_of_true (refines_of_vlessUsers hs rfl (ite_self _)) trivial

end Tracked

/-! ## Sequences of calls -/

open Tracked

theorem after_append (protocol : ProtocolConfig) (calls : List Call) (c : Call) :
    after protocol (calls ++ [c]) = (after protocol calls).call c := by
  simp [after]

/-- Through a sequence of calls the store accepts exactly the UUIDs that were introduced
    and not removed, and no two users denote the same, if and only if neither
    the initial configuration nor a call introduces a UUID twice. A call that fails leaves the
    store unchanged, whatever it is. -/
theorem store_refines_iff (protocol : ProtocolConfig) (calls : List Call) :
    (∀ (s : UserStore) c e, (s.call c).1 = .error e → (s.call c).2 = s) ∧
    ((∀ pre post, calls = pre ++ post → Refines (after protocol pre)) ↔
      (uuids protocol.vless.users).Nodup ∧
        ∀ pre c post, calls = pre ++ c :: post → (after protocol pre).store.Fresh c) := by
  refine ⟨fun s c e => call_error, fun h => ⟨?_, ?_⟩, ?_⟩
  · exact (refines_init_iff protocol).mp (h [] calls rfl)
  · rintro pre c post rfl
    refine (refines_call_iff (h pre (c :: post) rfl) c).mp ?_
    rw [← after_append]
    exact h (pre ++ [c]) post (by simp)
  · rintro ⟨hinit, hfresh⟩ pre
    -- by induction on the calls that were made
    induction pre using List.reverseRecOn with
    | nil => exact fun _ _ => (refines_init_iff protocol).mpr hinit
    | append_singleton pre c ih =>
      intro post hcalls
      have hcalls' : calls = pre ++ c :: post := by simpa using hcalls
      rw [after_append]
      exact (refines_call_iff (ih _ hcalls') c).mpr (hfresh pre c post hcalls')

def sampleProtocol : ProtocolConfig :=
  { socks5Enabled := false
    socks5 := ⟨.noAuth, [], false, false⟩
    vless := ⟨true, [⟨"aaaaaaaa-aaaa-aaaa-aaaa-aaaaaaaaaaaa", none, none⟩]⟩ }

def respelledUser : VlessUser := ⟨"AAAAAAAAAAAAAAAAAAAAAAAAAAAAAAAA", none, none⟩

theorem removed_uuid_accepted :
    sampleProtocol.validateVless = .ok () ∧
      ((after sampleProtocol []).store.call (.addVless respelledUser)).1 = .ok () ∧
      ((after sampleProtocol [.addVless respelledUser]).store.call
        (.removeVless "aaaaaaaa-aaaa-aaaa-aaaa-aaaaaaaaaaaa")).1 = .ok () ∧
      let s := after sampleProtocol
        [.addVless respelledUser, .removeVless "aaaaaaaa-aaaa-aaaa-aaaa-aaaaaaaaaaaa"]
      (s.store.vlessConfig.authenticate (List.Vector.replicate 16 0xaa)).isSome = true ∧
        List.Vector.replicate 16 0xaa ∉ s.model := by
  refine ⟨?_, ?_, ?_, ?_, ?_⟩ <;> decide +kernel

/-! ## SOCKS5 users -/

namespace UserStore

/-- `UserStore::socks5_config` (lines 72-81). -/
def socks5Config (s : UserStore) : Socks5Config :=
  { auth := s.socksAuth
    users := s.socksUsers
    bind := s.socksBind
    udpAssociate := s.socksUdpAssociate }

def after (protocol : ProtocolConfig) (calls : List Call) : UserStore :=
  calls.foldl (fun s c => (s.call c).2) (.fromProtocol protocol)

end UserStore

abbrev Logins := String → Option String

namespace Logins

/-- The login is complete and its name is not taken. -/
def Free (m : Logins) (user : UserCredential) : Prop :=
  user.username ≠ "" ∧ user.password ≠ "" ∧ m user.username = none

instance (m : Logins) (user : UserCredential) : Decidable (m.Free user) :=
  inferInstanceAs (Decidable (_ ∧ _ ∧ _))

def call (m : Logins) : Call → Logins
  | .reload protocol => protocol.socks5.lookup
  | .addSocks5 user =>
    if m.Free user then Function.update m user.username (some user.password) else m
  | .removeSocks5 username => Function.update m username none
  | .addVless _ | .removeVless _ => m

def after (protocol : ProtocolConfig) (calls : List Call) : Logins :=
  calls.foldl call protocol.socks5.lookup

end Logins

variable {s : UserStore}

theorem lookup_eq_none_iff {username : String} :
    s.socks5Config.lookup username = none ↔ ¬ ∃ u ∈ s.socksUsers, u.username = username := by
  simp [Socks5Config.lookup, UserStore.socks5Config]

variable {user : UserCredential}

theorem addSocks5User_of_free (h : Logins.Free s.socks5Config.lookup user) :
    s.addSocks5User user = (.ok (), { s with socksUsers := s.socksUsers ++ [user] }) := by
  obtain ⟨husername, hpassword, hnew⟩ := h
  rw [UserStore.addSocks5User, if_neg (by simpa using husername), if_neg (by simpa using hpassword),
    pushNew_of_not_mem (lookup_eq_none_iff.mp hnew)]
  rfl

theorem addSocks5User_of_not_free (h : ¬ Logins.Free s.socks5Config.lookup user) :
    ∃ e, (s.addSocks5User user).1 = .error e := by
  unfold UserStore.addSocks5User
  split_ifs with husername hpassword
  · exact ⟨_, rfl⟩
  · exact ⟨_, rfl⟩
  · have hold : ∃ u ∈ s.socksUsers, u.username = user.username := by
      by_contra hnew
      exact h ⟨by simpa using husername, by simpa using hpassword, lookup_eq_none_iff.mpr hnew⟩
    rw [pushNew_of_mem hold]
    exact ⟨_, rfl⟩

theorem lookup_append (h : s.socks5Config.lookup user.username = none) :
    ({ s with socksUsers := s.socksUsers ++ [user] } : UserStore).socks5Config.lookup =
      Function.update s.socks5Config.lookup user.username (some user.password) := by
  funext username
  by_cases heq : username = user.username
  · subst heq
    simp only [Socks5Config.lookup, UserStore.socks5Config, Option.map_eq_none_iff] at h ⊢
    simp [h]
  · have hne : (user.username == username) = false := by simpa using Ne.symm heq
    simp [Socks5Config.lookup, UserStore.socks5Config, heq, hne]

theorem lookup_removeSocks5User (username : String) :
    (s.removeSocks5User username).2.socks5Config.lookup =
      Function.update s.socks5Config.lookup username none := by
  funext name
  show ((s.socksUsers.filter fun u => u.username != username).find? fun u =>
    u.username == name).map UserCredential.password = _
  rw [List.find?_filter]
  by_cases heq : name = username
  · subst heq
    simp
  · have hsame : (fun u : UserCredential => decide ((u.username != username) = true ∧
        (u.username == name) = true)) = fun u => u.username == name := by
      funext u
      by_cases hu : u.username = name <;> simp [hu, heq]
    rw [hsame, Function.update_of_ne heq]
    rfl

theorem lookup_call (s : UserStore) (c : Call) :
    (s.call c).2.socks5Config.lookup = Logins.call s.socks5Config.lookup c := by
  cases c with
  | reload protocol => rfl
  | addVless user =>
    simp only [UserStore.call, UserStore.addVlessUser]
    split <;> rfl
  | removeVless id => rfl
  | addSocks5 user =>
    by_cases h : Logins.Free s.socks5Config.lookup user
    · rw [Logins.call, if_pos h, UserStore.call, addSocks5User_of_free h]
      exact lookup_append h.2.2
    · obtain ⟨e, he⟩ := addSocks5User_of_not_free h
      rw [Logins.call, if_neg h, call_error (c := .addSocks5 user) he]
  | removeSocks5 username => exact lookup_removeSocks5User username

/-- Through every sequence of calls and reloads, the configuration that connections get from the
    store has the passwords of the map. An addition succeeds exactly if the username is
    free, a removal exactly if it is taken. -/
theorem socks5_store_refines (protocol : ProtocolConfig) (calls : List Call) :
    let s := UserStore.after protocol calls
    let m := Logins.after protocol calls
    s.socks5Config.lookup = m ∧
      (∀ user, (s.call (.addSocks5 user)).1 = .ok () ↔ m.Free user) ∧
      ∀ username, (s.call (.removeSocks5 username)).1 = .ok () ↔ (m username).isSome := by
  intro s m
  have hlookup : s.socks5Config.lookup = m :=
    (List.foldl_hom (fun s : UserStore => s.socks5Config.lookup)
      fun s c => (lookup_call s c).symm).symm
  refine ⟨hlookup, fun user => ?_, fun username => ?_⟩
  · rw [← hlookup]
    by_cases h : Logins.Free s.socks5Config.lookup user
    · simp [UserStore.call, addSocks5User_of_free h, h]
    · obtain ⟨e, he⟩ := addSocks5User_of_not_free h
      simp [UserStore.call, he, h]
  · rw [← hlookup, ← Option.ne_none_iff_isSome, Ne, lookup_eq_none_iff, not_not]
    simp only [UserStore.call, UserStore.removeSocks5User, UserStore.withSocks,
      UserStore.retainOthers, List.length_filter_eq_length_iff]
    by_cases hall : ∀ u ∈ s.socksUsers, (u.username != username) = true
    · rw [if_pos hall]
      simpa using hall
    · rw [if_neg hall]
      simpa using hall

end SkadiCore.Server
