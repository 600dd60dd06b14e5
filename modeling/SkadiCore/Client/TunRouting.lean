import SkadiCore.Common.PolicyRouting
import SkadiCore.Common.Result
import SkadiCore.Core.AddrParse
import Mathlib.Data.List.Destutter
import Mathlib.Data.List.Sort
import Mathlib.Order.Lex

/-!
# Routing into the TUN device

Model of `crates/skadi-client/src/tun/routing.rs`. `RoutingGuard::apply` runs `ip` for a host
route per bypassed address, for a default route in a table of its own, and for a rule that
leads to the table; `revert` runs it to take these back. Any call of `ip` may fail.

**A failure leaves the routes that were set before.** `apply` returns with `?`, and there is no
guard yet (`routes_left_behind`). In `run` (`tun/mod.rs`, lines 34-40) the device is made only
behind `apply`, so the call for the default route finds it only if it was there before.

**Routes and rules that were there are lost.** `ip route replace` overwrites a host route and
`revert` deletes it, `revert` flushes the whole table, and a rule that is found to be there is
deleted all the same.

**Abstraction.** A table is what its number says; the numbers with a meaning of their own are not
told apart, but for the main table 254. What another process does meanwhile is not part of the
state.
-/

namespace SkadiCore.Client

open PolicyRouting

/-! ## Addresses -/

structure TunRoutingConfig where
  auto : Bool
  table : UInt32
  bypass : List String

structure TunConfig where
  name : String
  address : String

/-- `parse_ipv4` (lines 233-241). -/
def parseIpv4 (value field : String) : Except String (List.Vector Byte 4) :=
  match IpAddr.parse value with
  | none => .error s!"invalid {field}"
  | some (.v4 v4) => .ok v4
  | some (.v6 _) => .error s!"{field} must be IPv4"

def ipv4Le (a b : List.Vector Byte 4) : Prop :=
  a.val.map UInt8.toNat ≤ b.val.map UInt8.toNat

instance : DecidableRel ipv4Le := fun _ _ => inferInstanceAs (Decidable (_ ≤ _))

/-- `parse_bypass_list` (lines 223-231). -/
def parseBypassList (values : List String) : Except String (List (List.Vector Byte 4)) := do
  let out ← values.mapM (parseIpv4 · "client.tun.routing.bypass")
  return (out.insertionSort ipv4Le).destutter (· ≠ ·)

def addProxyIps (bypass proxyIps : List (List.Vector Byte 4)) : List (List.Vector Byte 4) :=
  proxyIps.foldl (fun ips ip => if ip ∈ ips then ips else ips ++ [ip]) bypass

/-! ## The default route -/

structure DefaultRoute where
  gateway : List.Vector Byte 4
  device : String
  deriving DecidableEq

inductive IpOutput
  | notRun
  | failure (stderr : String)
  | success (stdout : String)

def splitWhitespace (line : List Char) : List (List Char) :=
  (line.splitOnP isWhitespace).filter (· ≠ [])

def wordBehind (key : String) (parts : List (List Char)) : Option (Option (List Char)) :=
  (parts.findIdx? (· = key.toList)).map fun i => parts[i + 1]?

/-- `parse_default_route_line` (lines 176-198). -/
def parseDefaultRouteLine (line : List Char) : Except String DefaultRoute := do
  let parts := splitWhitespace line
  let via ← okOr "default route line missing `via`" (wordBehind "via" parts)
  let dev ← okOr "default route line missing `dev`" (wordBehind "dev" parts)
  let gateway ← okOr "default route missing gateway" via
  let gateway ← okOr "invalid default gateway"
    (AddrParse.parseWith AddrParse.readIpv4Addr (.ofList gateway))
  let device ← okOr "default route missing device" dev
  return ⟨gateway, .ofList device⟩

/-- `discover_default_route` (lines 154-174), on what `ip -4 route show default` gives back. -/
def discoverDefaultRoute : IpOutput → Except String DefaultRoute
  | .notRun => .error "failed to run `ip route show default`"
  | .failure stderr => .error s!"`ip route show default` failed: {stderr}"
  | .success stdout => do
    let line ← okOr "no default IPv4 route found"
      ((stdout.toList.splitOn '\n').find? fun line => !line.all isWhitespace)
    parseDefaultRouteLine line

/-! ## Calls of `ip` -/

structure Ipv4Net where
  address : List.Vector Byte 4
  length : ℕ
  deriving DecidableEq

def hostNet (address : List.Vector Byte 4) : Ipv4Net := ⟨address, 32⟩

def defaultNet : Ipv4Net := ⟨ipv4Addr 0 0 0 0, 0⟩

structure NextHop where
  gateway : Option (List.Vector Byte 4)
  device : String
  deriving DecidableEq

def MAIN_TABLE : ℕ := 254

abbrev Kernel := RoutingState Ipv4Net NextHop

structure BypassRoute where
  destination : List.Vector Byte 4
  gateway : List.Vector Byte 4
  device : String
  deriving DecidableEq

def BypassRoute.net (route : BypassRoute) : Ipv4Net := hostNet route.destination

def BypassRoute.hop (route : BypassRoute) : NextHop := ⟨some route.gateway, route.device⟩

inductive IpCall
  | replaceBypass (route : BypassRoute)
  | replaceDefault (name : String) (table : UInt32)
  | addRule (tunAddress : List.Vector Byte 4) (table : UInt32)
  | delRule (tunAddress : List.Vector Byte 4) (table : UInt32)
  | flushTable (table : UInt32)
  | delBypass (route : BypassRoute)
  deriving DecidableEq

namespace IpCall

def bypassArgs (route : BypassRoute) : List String :=
  [displayIpv4 route.destination ++ "/32", "via", displayIpv4 route.gateway, "dev", route.device]

def args : IpCall → List String
  | replaceBypass route => ["-4", "route", "replace"] ++ bypassArgs route
  | replaceDefault name table =>
    ["-4", "route", "replace", "default", "dev", name, "table", toString table.toNat]
  | addRule tunAddress table =>
    ["-4", "rule", "add", "from", displayIpv4 tunAddress ++ "/32", "table", toString table.toNat]
  | delRule tunAddress table =>
    ["-4", "rule", "del", "from", displayIpv4 tunAddress ++ "/32", "table", toString table.toNat]
  | flushTable table => ["-4", "route", "flush", "table", toString table.toNat]
  | delBypass route => ["-4", "route", "del"] ++ bypassArgs route

def command : IpCall → IpCommand Ipv4Net NextHop
  | replaceBypass route => .routeReplace MAIN_TABLE route.net route.hop
  | replaceDefault name table => .routeReplace table.toNat defaultNet ⟨none, name⟩
  | addRule tunAddress table => .ruleAdd (hostNet tunAddress) table.toNat
  | delRule tunAddress table => .ruleDel (hostNet tunAddress) table.toNat
  | flushTable table => .routeFlush table.toNat
  | delBypass route => .routeDel MAIN_TABLE route.net route.hop

end IpCall

def contains (stderr text : String) : Bool := decide (text.toList <:+: stderr.toList)

def saysFileExists (stderr : String) : Bool :=
  contains stderr "File exists" || contains stderr "RTNETLINK answers: File exists"

inductive IpFailure
  | notRun
  | failure (stderr : String) (other : saysFileExists stderr = false)

def IpFailure.output : IpFailure → IpOutput
  | notRun => .notRun
  | failure stderr _ => .failure stderr

abbrev Failures := IpCall → Option IpFailure

variable (fails : Failures)

def callIp (call : IpCall) (s : Kernel) : IpOutput × Kernel :=
  match fails call with
  | some failure => (failure.output, s)
  | none =>
    match call.command.refusal s with
    | some stderr => (.failure stderr, s)
    | none => (.success "", call.command.effect s)

/-- `run_ip` (lines 243-259). -/
def runIp (call : IpCall) (s : Kernel) : Except String Unit × Kernel :=
  let args := " ".intercalate call.args
  match callIp fails call s with
  | (.notRun, s) => (.error s!"failed to run `ip {args}`", s)
  | (.success _, s) => (.ok (), s)
  | (.failure stderr, s) =>
    let reason := trim stderr
    if saysFileExists stderr then (.ok (), s) else (.error s!"`ip {args}` failed: {reason}", s)

def runCalls : List IpCall → Kernel → Except String Unit × Kernel
  | [], s => (.ok (), s)
  | call :: calls, s =>
    match runIp fails call s with
    | (.ok (), s) => runCalls calls s
    | (.error err, s) => (.error err, s)

/-! ## The guard -/

structure RoutingGuard where
  table : UInt32
  tunAddress : List.Vector Byte 4
  bypassRoutes : List BypassRoute
  applied : Bool
  deriving DecidableEq

namespace RoutingGuard

/-- The guard that `apply` makes if its calls succeed (lines 36-57, 106-111); `output` is what
    `ip route show default` gives back. -/
def plan (output : IpOutput) (tun : TunConfig) (routing : TunRoutingConfig)
    (proxyIps : List (List.Vector Byte 4)) : Except String (Option RoutingGuard) := do
  if !routing.auto then return none
  let tunAddress ← parseIpv4 tun.address "client.tun.address"
  let defaultRoute ← discoverDefaultRoute output
  let bypassIps ← parseBypassList routing.bypass
  let bypassRoutes := (addProxyIps bypassIps proxyIps).map fun dest =>
    ⟨dest, defaultRoute.gateway, defaultRoute.device⟩
  return some ⟨routing.table, tunAddress, bypassRoutes, true⟩

variable (guard : RoutingGuard)

def setup (name : String) : List IpCall :=
  guard.bypassRoutes.map .replaceBypass ++
    [.replaceDefault name guard.table, .addRule guard.tunAddress guard.table]

/-- `RoutingGuard::apply` (lines 31-112). -/
def apply (output : IpOutput) (tun : TunConfig) (routing : TunRoutingConfig)
    (proxyIps : List (List.Vector Byte 4)) (s : Kernel) :
    Except String (Option RoutingGuard) × Kernel :=
  match plan output tun routing proxyIps with
  | .error err => (.error err, s)
  | .ok none => (.ok none, s)
  | .ok (some guard) =>
    match runCalls fails (guard.setup tun.name) s with
    | (.ok (), s) => (.ok (some guard), s)
    | (.error err, s) => (.error err, s)

def undo : List IpCall :=
  .delRule guard.tunAddress guard.table :: .flushTable guard.table ::
    guard.bypassRoutes.map .delBypass

/-- `RoutingGuard::revert` (lines 114-145): what the calls give back is ignored. -/
def revert (s : Kernel) : RoutingGuard × Kernel :=
  if !guard.applied then (guard, s)
  else
    ({ guard with applied := false }, guard.undo.foldl (fun s call => (runIp fails call s).2) s)

/-- `Drop::drop` (lines 148-152). -/
def drop (s : Kernel) : Kernel := (guard.revert fails s).2

/-! ## What should hold -/

def works (call : IpCall) : Bool := (fails call).isNone

/-- A failed `apply` leaves the state as it was, and so does one that has nothing to do; what
    another one does is taken back by `drop`, or by `revert`, behind which `drop` does
    nothing. -/
structure Restores (output : IpOutput) (tun : TunConfig) (routing : TunRoutingConfig)
    (proxyIps : List (List.Vector Byte 4)) (s : Kernel) : Prop where
  failed : ∀ err t, apply fails output tun routing proxyIps s = (.error err, t) → t = s
  off : ∀ t, apply fails output tun routing proxyIps s = (.ok none, t) → t = s
  reverted : ∀ guard t, apply fails output tun routing proxyIps s = (.ok (some guard), t) →
    guard.drop fails t = s ∧ (guard.revert fails t).2 = s ∧
      (guard.revert fails t).1.drop fails (guard.revert fails t).2 = s

/-- What the setup adds is what the revert removes. -/
structure Undoable (name : String) (s : Kernel) : Prop where
  rule :
    if works fails (.delRule guard.tunAddress guard.table) then
      FreshRule (hostNet guard.tunAddress) guard.table.toNat s.rules
    else s.rules.any (·.isPlain (hostNet guard.tunAddress) guard.table.toNat) = true
  table :
    if works fails (.flushTable guard.table) then ∀ dest, s.tables guard.table.toNat dest = []
    else Route.plain ⟨none, name⟩ ∈ s.tables guard.table.toNat defaultNet
  -- If the table is the main one, and is flushed, nothing is left for the last calls.
  hosts : ∀ route ∈ guard.bypassRoutes,
    ¬ (works fails (.flushTable guard.table) = true ∧ MAIN_TABLE = guard.table.toNat) →
    if works fails (.delBypass route) then ∀ r ∈ s.tables MAIN_TABLE route.net, r.metric ≠ 0
    else Route.plain route.hop ∈ s.tables MAIN_TABLE route.net

/-- A setup that fails adds nothing new, and one that works can be undone. -/
structure Harmless (name : String) (s : Kernel) : Prop where
  failing : (∃ call ∈ guard.setup name, works fails call = false) →
    ∀ call ∈ (guard.setup name).takeWhile (works fails), call.command.Installed s
  working : (∀ call ∈ guard.setup name, works fails call = true) → guard.Undoable fails name s

end RoutingGuard

/-! ## Sequences of calls -/

open IpCommand (effects effects_append)

open RoutingGuard (works)

variable {fails} {s : Kernel} {call : IpCall} {calls : List IpCall}

abbrev commands (calls : List IpCall) : List (IpCommand Ipv4Net NextHop) :=
  calls.map IpCall.command

theorem runIp_snd (call : IpCall) (s : Kernel) :
    (runIp fails call s).2 = if works fails call then call.command.effect s else s := by
  rw [runIp, callIp, works]
  cases hfails : fails call with
  | some failure =>
    cases failure with
    | notRun => rfl
    | failure stderr other => simp [IpFailure.output, other]
  | none =>
    cases hrefusal : call.command.refusal s with
    | some stderr =>
      rw [IpCommand.effect_of_refusal hrefusal]
      by_cases hexists : saysFileExists stderr = true
      · simp [hexists]
      · simp [hexists]
    | none => rfl

theorem runIp_of_works (hsets : call.command.Sets) (hworks : works fails call = true) :
    runIp fails call s = (.ok (), call.command.effect s) := by
  have hnone : fails call = none := Option.isNone_iff_eq_none.mp hworks
  refine Prod.ext ?_ ((runIp_snd call s).trans (if_pos hworks))
  rw [runIp, callIp, hnone]
  cases hrefusal : call.command.refusal s with
  | some stderr =>
    have hexists : saysFileExists stderr = true := by
      generalize call.command = c at hsets hrefusal
      cases c with
      | ruleAdd =>
        rw [IpCommand.refusal] at hrefusal
        split_ifs at hrefusal
        cases hrefusal
        decide
      | routeReplace => cases hrefusal
      | routeDel | routeFlush | ruleDel => cases hsets
    simp [hexists]
  | none => rfl

theorem runIp_of_not_works (hworks : works fails call = false) :
    ∃ err, runIp fails call s = (.error err, s) := by
  have herror : ∃ err, (runIp fails call s).1 = .error err := by
    rw [runIp, callIp]
    cases hfails : fails call with
    | some failure =>
      cases failure with
      | notRun => exact ⟨_, rfl⟩
      | failure stderr other => simp [IpFailure.output, other]
    | none => simp [works, hfails] at hworks
  obtain ⟨err, herr⟩ := herror
  exact ⟨err, Prod.ext herr ((runIp_snd call s).trans (if_neg (by simp [hworks])))⟩

theorem runCalls_of_works (hsets : ∀ call ∈ calls, call.command.Sets)
    (hworks : ∀ call ∈ calls, works fails call = true) :
    runCalls fails calls s = (.ok (), effects s (commands calls)) := by
  induction calls generalizing s with
  | nil => rfl
  | cons call calls ih =>
    obtain ⟨hset, hsets⟩ := List.forall_mem_cons.mp hsets
    obtain ⟨hwork, hworks⟩ := List.forall_mem_cons.mp hworks
    rw [runCalls, runIp_of_works hset hwork]
    exact ih hsets hworks

theorem runCalls_of_not_works (hsets : ∀ call ∈ calls, call.command.Sets)
    (hfails : ∃ call ∈ calls, works fails call = false) :
    ∃ err, runCalls fails calls s =
      (.error err, effects s (commands (calls.takeWhile (works fails)))) := by
  induction calls generalizing s with
  | nil =>
    obtain ⟨call, hcall, -⟩ := hfails
    cases hcall
  | cons call calls ih =>
    obtain ⟨hset, hsets⟩ := List.forall_mem_cons.mp hsets
    cases hwork : works fails call with
    | true =>
      rw [runCalls, runIp_of_works hset hwork, List.takeWhile_cons_of_pos hwork]
      exact ih hsets (by simpa [hwork] using hfails)
    | false =>
      obtain ⟨err, herr⟩ := runIp_of_not_works (s := s) hwork
      rw [runCalls, herr, List.takeWhile_cons_of_neg (by simp [hwork])]
      exact ⟨err, rfl⟩

/-! ## The bypassed addresses -/

theorem octets_injective :
    Function.Injective fun ip : List.Vector Byte 4 => ip.val.map UInt8.toNat :=
  (List.map_injective_iff.mpr fun _ _ => UInt8.toNat_inj.mp).comp Subtype.val_injective

theorem nodup_parseBypassList {values : List String} {ips : List (List.Vector Byte 4)}
    (h : parseBypassList values = .ok ips) : ips.Nodup := by
  obtain ⟨out, -, hips⟩ := bind_eq_ok.mp h
  cases hips
  have htotal : Std.Total ipv4Le := ⟨fun a b => le_total _ _⟩
  have htrans : IsTrans _ ipv4Le := ⟨fun a b c hab hbc => le_trans hab hbc⟩
  have hsorted : ((out.insertionSort ipv4Le).destutter (· ≠ ·)).IsChain ipv4Le :=
    ((List.pairwise_insertionSort ipv4Le out).sublist (List.destutter_sublist _ _)).isChain
  have hchain := List.isChain_destutter (· ≠ ·) (out.insertionSort ipv4Le)
  let lt (a b : List.Vector Byte 4) : Prop := a.val.map UInt8.toNat < b.val.map UInt8.toNat
  have hstrict : ((out.insertionSort ipv4Le).destutter (· ≠ ·)).IsChain lt := by
    rw [List.isChain_iff_getElem] at hsorted hchain ⊢
    exact fun i hi => lt_of_le_of_ne (hsorted i hi) fun heq =>
      hchain i hi (octets_injective heq)
  have hlt : Trans lt lt lt := ⟨fun hab hbc => lt_trans hab hbc⟩
  refine List.Pairwise.imp ?_ hstrict.pairwise
  rintro a _ hab rfl
  exact lt_irrefl _ hab

theorem nodup_addProxyIps {bypass : List (List.Vector Byte 4)} (h : bypass.Nodup)
    (proxyIps : List (List.Vector Byte 4)) : (addProxyIps bypass proxyIps).Nodup := by
  unfold addProxyIps
  induction proxyIps generalizing bypass with
  | nil => exact h
  | cons ip ips ih =>
    rw [List.foldl_cons]
    refine ih ?_
    split_ifs with hmem
    · exact h
    · exact List.nodup_append.mpr ⟨h, List.nodup_singleton ip, by
        rintro a ha b hb rfl
        exact hmem (List.mem_singleton.mp hb ▸ ha)⟩

theorem hostNet_injective : Function.Injective hostNet := fun _ _ h => by cases h; rfl

theorem net_ne_defaultNet (route : BypassRoute) : route.net ≠ defaultNet :=
  fun h => by cases congrArg Ipv4Net.length h

namespace RoutingGuard

variable {guard : RoutingGuard} {name : String}

theorem plan_eq_some {output : IpOutput} {tun : TunConfig} {routing : TunRoutingConfig}
    {proxyIps : List (List.Vector Byte 4)}
    (h : plan output tun routing proxyIps = .ok (some guard)) :
    guard.applied = true ∧ (guard.bypassRoutes.map BypassRoute.net).Nodup := by
  unfold plan at h
  cases hauto : routing.auto with
  | false =>
    rw [hauto] at h
    cases h
  | true =>
    rw [hauto] at h
    obtain ⟨_, -, h⟩ := bind_eq_ok.mp h
    obtain ⟨_, -, h⟩ := bind_eq_ok.mp h
    obtain ⟨bypassIps, hbypass, h⟩ := bind_eq_ok.mp h
    cases h
    refine ⟨rfl, ?_⟩
    rw [List.map_map]
    exact (nodup_addProxyIps (nodup_parseBypassList hbypass) proxyIps).map hostNet_injective

/-! ## The state behind `apply` and `revert` -/

theorem actsOn_replaceBypass : IpCommand.ActsOn MAIN_TABLE BypassRoute.net
    (fun route => replaceRoute route.hop) (IpCall.command ∘ .replaceBypass) := fun _ _ => rfl

theorem actsOn_delBypass : IpCommand.ActsOn MAIN_TABLE BypassRoute.net
    (fun route => delRoute route.hop) (IpCall.command ∘ .delBypass) := fun _ _ => rfl

theorem setup_sets : ∀ call ∈ guard.setup name, call.command.Sets := by
  intro call hcall
  simp only [setup, List.mem_append, List.mem_map, List.mem_cons, List.not_mem_nil,
    or_false] at hcall
  rcases hcall with ⟨_, -, rfl⟩ | rfl | rfl
  · trivial
  · trivial
  · trivial

theorem setup_separate (hnets : (guard.bypassRoutes.map BypassRoute.net).Nodup) :
    (commands (guard.setup name)).Pairwise IpCommand.Separate := by
  rw [commands, setup, List.map_append, List.map_map, List.pairwise_append]
  refine ⟨?_, by simp [IpCall.command, IpCommand.Separate], ?_⟩
  · rw [List.Nodup, List.pairwise_map] at hnets
    rw [List.pairwise_map]
    exact hnets.imp fun hne hsame => hne hsame.2
  · intro c hc c' hc'
    obtain ⟨route, -, rfl⟩ := List.mem_map.mp hc
    simp only [List.map_cons, List.map_nil, List.mem_cons, List.not_mem_nil, or_false] at hc'
    rcases hc' with rfl | rfl
    · exact fun hsame => net_ne_defaultNet route hsame.2
    · trivial

theorem effects_takeWhile_eq_iff (hnets : (guard.bypassRoutes.map BypassRoute.net).Nodup) :
    effects s (commands ((guard.setup name).takeWhile (works fails))) = s ↔
      ∀ call ∈ (guard.setup name).takeWhile (works fails), call.command.Installed s := by
  have hsub := List.takeWhile_sublist (l := guard.setup name) (works fails)
  rw [IpCommand.effects_eq_iff
    (List.forall_mem_map.mpr fun call hcall => setup_sets call (hsub.subset hcall))
    ((setup_separate hnets).sublist (hsub.map _))]
  exact List.forall_mem_map

abbrev bypassed (guard : RoutingGuard) (s : Kernel) : Kernel :=
  effects s (guard.bypassRoutes.map (IpCall.command ∘ .replaceBypass))

def afterApply (guard : RoutingGuard) (name : String) (s : Kernel) : Kernel :=
  { (guard.bypassed s).setRoutes guard.table.toNat defaultNet
      (replaceRoute ⟨none, name⟩ ((guard.bypassed s).tables guard.table.toNat defaultNet)) with
    rules := addRule (hostNet guard.tunAddress) guard.table.toNat s.rules }

theorem effects_setup : effects s (commands (guard.setup name)) = guard.afterApply name s := by
  rw [commands, setup, List.map_append, List.map_map, effects_append, afterApply,
    ← IpCommand.rules_effects actsOn_replaceBypass s guard.bypassRoutes]
  rfl

def cleared (fails : Failures) (guard : RoutingGuard) (s : Kernel) : Kernel where
  tables t dest :=
    if works fails (.flushTable guard.table) ∧ t = guard.table.toNat then [] else s.tables t dest
  rules :=
    if works fails (.delRule guard.tunAddress guard.table) then
      delRule (hostNet guard.tunAddress) guard.table.toNat s.rules
    else s.rules

def deleted (fails : Failures) (guard : RoutingGuard) : List BypassRoute :=
  guard.bypassRoutes.filter (works fails ∘ .delBypass)

theorem deleted_sublist : (guard.deleted fails).Sublist guard.bypassRoutes := List.filter_sublist

theorem revert_eq (happlied : guard.applied = true) : (guard.revert fails s).2 =
    effects (guard.cleared fails s)
      ((guard.deleted fails).map (IpCall.command ∘ .delBypass)) := by
  have hfold : ∀ (calls : List IpCall) (s : Kernel),
      calls.foldl (fun s call => (runIp fails call s).2) s =
        effects s (commands (calls.filter (works fails))) := by
    intro calls
    induction calls with
    | nil => exact fun s => rfl
    | cons call calls ih =>
      intro s
      rw [List.foldl_cons, ih, runIp_snd, List.filter_cons]
      split_ifs
      · rfl
      · rfl
  have hcleared : (runIp fails (.flushTable guard.table)
      (runIp fails (.delRule guard.tunAddress guard.table) s).2).2 = guard.cleared fails s := by
    rw [runIp_snd, runIp_snd, cleared]
    cases works fails (.delRule guard.tunAddress guard.table) <;>
      cases works fails (.flushTable guard.table) <;> simp [IpCall.command, IpCommand.effect]
  rw [revert, happlied]
  change guard.undo.foldl _ s = _
  rw [undo, List.foldl_cons, List.foldl_cons, hcleared, hfold, deleted, List.filter_map, commands,
    List.map_map]

abbrev afterRevert (fails : Failures) (guard : RoutingGuard) (name : String) (s : Kernel) :
    Kernel :=
  effects (guard.cleared fails (guard.afterApply name s))
    ((guard.deleted fails).map (IpCall.command ∘ .delBypass))

theorem rules_afterRevert_eq_iff : (guard.afterRevert fails name s).rules = s.rules ↔
    if works fails (.delRule guard.tunAddress guard.table) then
      FreshRule (hostNet guard.tunAddress) guard.table.toNat s.rules
    else s.rules.any (·.isPlain (hostNet guard.tunAddress) guard.table.toNat) = true := by
  rw [afterRevert, IpCommand.rules_effects actsOn_delBypass, cleared, afterApply]
  split_ifs
  · exact delRule_addRule_eq_iff
  · exact addRule_eq_iff

section Tables

variable {t : ℕ} {dest : Ipv4Net}

theorem tables_afterRevert_of_not
    (h : t = MAIN_TABLE → ∀ route ∈ guard.bypassRoutes, route.net ≠ dest) :
    (guard.afterRevert fails name s).tables t dest =
      if works fails (.flushTable guard.table) ∧ t = guard.table.toNat then []
      else if t = guard.table.toNat ∧ dest = defaultNet then
        replaceRoute ⟨none, name⟩ (s.tables t dest)
      else s.tables t dest := by
  have hbypassed : (guard.bypassed s).tables t dest = s.tables t dest :=
    IpCommand.tables_effects_of_not actsOn_replaceBypass h s
  rw [afterRevert, IpCommand.tables_effects_of_not actsOn_delBypass
    fun ht route hroute => h ht route (deleted_sublist.subset hroute), cleared]
  dsimp only
  congr 1
  rw [← hbypassed, afterApply]
  split_ifs with hkey
  · obtain ⟨rfl, rfl⟩ := hkey
    exact RoutingState.tables_setRoutes_self
  · exact RoutingState.tables_setRoutes_of_ne hkey

variable {route : BypassRoute}

variable (hnets : (guard.bypassRoutes.map BypassRoute.net).Nodup)
include hnets

theorem tables_cleared_of_mem
    (hroute : route ∈ guard.bypassRoutes) :
    (guard.cleared fails (guard.afterApply name s)).tables MAIN_TABLE route.net =
      if works fails (.flushTable guard.table) ∧ MAIN_TABLE = guard.table.toNat then []
      else replaceRoute route.hop (s.tables MAIN_TABLE route.net) := by
  rw [← IpCommand.tables_effects_of_mem actsOn_replaceBypass hnets hroute s, cleared, afterApply]
  exact congrArg (ite _ _)
    (RoutingState.tables_setRoutes_of_ne fun hkey => net_ne_defaultNet route hkey.2)

theorem tables_afterRevert_of_mem
    (hroute : route ∈ guard.bypassRoutes) :
    (guard.afterRevert fails name s).tables MAIN_TABLE route.net =
      let routes := (guard.cleared fails (guard.afterApply name s)).tables MAIN_TABLE route.net
      if works fails (.delBypass route) then delRoute route.hop routes else routes := by
  dsimp only
  split_ifs with hworks
  · exact IpCommand.tables_effects_of_mem actsOn_delBypass (hnets.sublist (deleted_sublist.map _))
      (List.mem_filter.mpr ⟨hroute, hworks⟩) _
  · refine IpCommand.tables_effects_of_not actsOn_delBypass (fun _ other hother heq => ?_) _
    have hsame : other = route :=
      List.inj_on_of_nodup_map hnets (deleted_sublist.subset hother) hroute heq
    exact hworks (hsame ▸ (List.mem_filter.mp hother).2)

theorem tables_afterRevert_eq_iff
    (hroute : route ∈ guard.bypassRoutes)
    (hflush : ¬ (works fails (.flushTable guard.table) = true ∧
      MAIN_TABLE = guard.table.toNat)) :
    (guard.afterRevert fails name s).tables MAIN_TABLE route.net =
        s.tables MAIN_TABLE route.net ↔
      if works fails (.delBypass route) then ∀ r ∈ s.tables MAIN_TABLE route.net, r.metric ≠ 0
      else Route.plain route.hop ∈ s.tables MAIN_TABLE route.net := by
  rw [tables_afterRevert_of_mem hnets hroute, tables_cleared_of_mem hnets hroute, if_neg hflush]
  dsimp only
  split_ifs
  · exact delRoute_replaceRoute_eq_iff
  · exact replaceRoute_eq_iff

theorem tables_afterRevert_of_flush
    (hworks : works fails (.flushTable guard.table) = true) :
    (guard.afterRevert fails name s).tables guard.table.toNat dest = [] := by
  by_cases hmem : guard.table.toNat = MAIN_TABLE ∧ ∃ route ∈ guard.bypassRoutes, route.net = dest
  · obtain ⟨hmain, route, hroute, rfl⟩ := hmem
    have hcleared : (guard.cleared fails (guard.afterApply name s)).tables MAIN_TABLE route.net =
        [] := (tables_cleared_of_mem hnets hroute).trans (if_pos ⟨hworks, hmain.symm⟩)
    rw [hmain, tables_afterRevert_of_mem hnets hroute, hcleared]
    exact ite_self _
  · rw [tables_afterRevert_of_not fun ht route hroute heq => hmem ⟨ht, route, hroute, heq⟩,
      if_pos ⟨hworks, rfl⟩]

end Tables

theorem afterRevert_eq_iff (hnets : (guard.bypassRoutes.map BypassRoute.net).Nodup) :
    guard.afterRevert fails name s = s ↔ guard.Undoable fails name s := by
  constructor
  · intro h
    have hsame : ∀ t dest, (guard.afterRevert fails name s).tables t dest = s.tables t dest :=
      fun t dest => by rw [h]
    refine ⟨rules_afterRevert_eq_iff.mp (congrArg _ h), ?_, ?_⟩
    · split_ifs with hworks
      · exact fun dest => (hsame _ dest).symm.trans (tables_afterRevert_of_flush hnets hworks)
      · have hdefault := hsame guard.table.toNat defaultNet
        rw [tables_afterRevert_of_not fun _ route _ => net_ne_defaultNet route,
          if_neg fun hw => hworks hw.1, if_pos ⟨rfl, rfl⟩] at hdefault
        exact replaceRoute_eq_iff.mp hdefault
    · exact fun route hroute hflush =>
        (tables_afterRevert_eq_iff hnets hroute hflush).mp (hsame _ _)
  · rintro ⟨hrule, htable, hhosts⟩
    refine RoutingState.ext (funext fun t => funext fun dest => ?_)
      (rules_afterRevert_eq_iff.mpr hrule)
    by_cases hflush : works fails (.flushTable guard.table) = true ∧ t = guard.table.toNat
    · obtain ⟨hworks, rfl⟩ := hflush
      rw [if_pos hworks] at htable
      rw [tables_afterRevert_of_flush hnets hworks, htable]
    · by_cases hmem : t = MAIN_TABLE ∧ ∃ route ∈ guard.bypassRoutes, route.net = dest
      · obtain ⟨rfl, route, hroute, rfl⟩ := hmem
        exact (tables_afterRevert_eq_iff hnets hroute hflush).mpr (hhosts route hroute hflush)
      · rw [tables_afterRevert_of_not fun ht route hroute heq => hmem ⟨ht, route, hroute, heq⟩,
          if_neg hflush]
        split_ifs with hkey
        · obtain ⟨rfl, rfl⟩ := hkey
          rw [if_neg fun hw => hflush ⟨hw, rfl⟩] at htable
          exact replaceRoute_eq_iff.mpr htable
        · rfl

theorem drop_revert (guard : RoutingGuard) (s : Kernel) :
    (guard.revert fails s).1.drop fails (guard.revert fails s).2 = (guard.revert fails s).2 := by
  cases happlied : guard.applied with
  | false => simp [drop, revert, happlied]
  | true => simp [drop, revert, happlied]

/-! ## Restoring the routing state -/

section Restoring

variable {output : IpOutput} {tun : TunConfig} {routing : TunRoutingConfig}
  {proxyIps : List (List.Vector Byte 4)}

theorem apply_of_fails (hplan : plan output tun routing proxyIps = .ok (some guard))
    (hfails : ∃ call ∈ guard.setup tun.name, works fails call = false) :
    ∃ err, apply fails output tun routing proxyIps s =
      (.error err, effects s (commands ((guard.setup tun.name).takeWhile (works fails)))) := by
  obtain ⟨err, hcalls⟩ := runCalls_of_not_works (s := s) setup_sets hfails
  exact ⟨err, by simp only [apply, hplan, hcalls]⟩

theorem apply_of_works (hplan : plan output tun routing proxyIps = .ok (some guard))
    (hworks : ∀ call ∈ guard.setup tun.name, works fails call = true) :
    apply fails output tun routing proxyIps s =
      (.ok (some guard), guard.afterApply tun.name s) := by
  simp only [apply, hplan, runCalls_of_works setup_sets hworks, effects_setup]

theorem restores_of_eq {r : Except String (Option RoutingGuard)}
    (happly : apply fails output tun routing proxyIps s = (r, s))
    (hr : ∀ guard, r ≠ .ok (some guard)) : Restores fails output tun routing proxyIps s := by
  refine ⟨fun err t h => ?_, fun t h => ?_, fun guard t h => ?_⟩
  · exact (congrArg Prod.snd (happly.symm.trans h)).symm
  · exact (congrArg Prod.snd (happly.symm.trans h)).symm
  · exact absurd (congrArg Prod.fst (happly.symm.trans h)) (hr guard)

theorem restores_of_reverted {t : Kernel}
    (happly : apply fails output tun routing proxyIps s = (.ok (some guard), t))
    (hrevert : (guard.revert fails t).2 = s) : Restores fails output tun routing proxyIps s := by
  refine ⟨fun err t h => ?_, fun t h => ?_, fun guard t h => ?_⟩
  · cases happly.symm.trans h
  · cases happly.symm.trans h
  · cases happly.symm.trans h
    exact ⟨hrevert, hrevert, (drop_revert guard _).trans hrevert⟩

theorem restores_iff_harmless (hplan : plan output tun routing proxyIps = .ok (some guard)) :
    Restores fails output tun routing proxyIps s ↔ guard.Harmless fails tun.name s := by
  obtain ⟨happlied, hnets⟩ := plan_eq_some hplan
  by_cases hfails : ∃ call ∈ guard.setup tun.name, works fails call = false
  · obtain ⟨err, happly⟩ := apply_of_fails (s := s) hplan hfails
    constructor
    · intro h
      refine ⟨fun _ => (effects_takeWhile_eq_iff hnets).mp (h.failed _ _ happly), fun hall => ?_⟩
      obtain ⟨call, hcall, hnot⟩ := hfails
      cases (hall call hcall).symm.trans hnot
    · intro h
      rw [(effects_takeWhile_eq_iff hnets).mpr (h.failing hfails)] at happly
      exact restores_of_eq happly (by simp)
  · have hworks : ∀ call ∈ guard.setup tun.name, works fails call = true := by
      simpa using hfails
    have happly := apply_of_works (s := s) hplan hworks
    have hiff : (guard.revert fails (guard.afterApply tun.name s)).2 = s ↔
        guard.Undoable fails tun.name s := by
      rw [revert_eq happlied]
      exact afterRevert_eq_iff hnets
    constructor
    · exact fun h => ⟨fun hsome => absurd hsome hfails,
        fun _ => hiff.mp (h.reverted _ _ happly).2.1⟩
    · exact fun h => restores_of_reverted happly (hiff.mpr (h.working hworks))

end Restoring

def emptyKernel : Kernel := ⟨fun _ _ => [], []⟩

def ownRoute : Kernel :=
  emptyKernel.setRoutes MAIN_TABLE (hostNet (ipv4Addr 1 2 3 4))
    [⟨0, ⟨some (ipv4Addr 10 0 0 9), "eth1"⟩, ["proto static"]⟩]

def noDevice : Failures := fun call =>
  if call = .replaceDefault "tun0" 100 then
    some (.failure "Cannot find device \"tun0\"" (by decide))
  else none

def sampleApply (fails : Failures) : Kernel → Except String (Option RoutingGuard) × Kernel :=
  apply fails (.success "default via 192.168.1.1 dev eth0 proto dhcp\n") ⟨"tun0", "10.0.0.2"⟩
    ⟨true, 100, ["1.2.3.4"]⟩ []

end RoutingGuard

end SkadiCore.Client
