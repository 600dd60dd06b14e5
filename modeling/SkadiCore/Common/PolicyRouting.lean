import Mathlib.Data.List.Basic
import Mathlib.Tactic

/-!
# Routing tables and rules

The routing state of a kernel: tables of routes, and a list of rules that choose a table by the
source of a packet. The commands are those of `ip route` and `ip rule`, as far as they name a
destination and a next hop, or a source and a table, and nothing else.

* `tables_effects_of_mem`, `tables_effects_of_not`: commands on different destinations do not
  get into each other's way.
* `effects_eq_iff`: commands that leave a state as it is have nothing to do in it.
* `delRoute_replaceRoute_eq_iff`, `delRule_addRule_eq_iff`: when a deletion undoes what was set.

The routes to a destination are in the order of their metrics, and the rules in the order of
their priorities; a command takes the first that it fits.
-/

namespace SkadiCore.PolicyRouting

/-- A route to some destination. What a command does not name has a default: the metric is 0,
    and there are no further attributes (protocol, scope, source address and so on). -/
structure Route (ν : Type*) where
  metric : ℕ
  hop : ν
  attributes : List String
  deriving DecidableEq

def Route.plain {ν : Type*} (hop : ν) : Route ν := ⟨0, hop, []⟩

structure Rule (δ : Type*) where
  priority : ℕ
  source : δ
  others : List String
  table : ℕ
  deriving DecidableEq

@[ext]
structure RoutingState (δ ν : Type*) where
  tables : ℕ → δ → List (Route ν)
  rules : List (Rule δ)

variable {δ ν : Type*}

/-! ## Routes to one destination -/

section Routes

variable [DecidableEq ν]

/-- `ip route replace`: a route that is there stays; another one of the same metric is
    replaced; else the route comes before those with a metric. -/
def replaceRoute (hop : ν) (routes : List (Route ν)) : List (Route ν) :=
  if Route.plain hop ∈ routes then routes
  else match routes.findIdx? (·.metric = 0) with
    | some i => routes.set i (.plain hop)
    | none => .plain hop :: routes

def delRoute (hop : ν) (routes : List (Route ν)) : List (Route ν) :=
  routes.eraseP (·.hop = hop)

variable {hop : ν} {routes : List (Route ν)}

theorem plain_mem_replaceRoute : Route.plain hop ∈ replaceRoute hop routes := by
  unfold replaceRoute
  split_ifs with hmem
  · exact hmem
  · split
    · rename_i i hi
      exact List.mem_set (List.findIdx?_eq_some_iff_getElem.mp hi).1 _
    · exact List.mem_cons_self

theorem replaceRoute_eq_iff : replaceRoute hop routes = routes ↔ Route.plain hop ∈ routes := by
  constructor
  · intro h
    rw [← h]
    exact plain_mem_replaceRoute
  · intro h
    rw [replaceRoute, if_pos h]

theorem length_replaceRoute {r : Route ν} (hr : r ∈ routes) (hmetric : r.metric = 0) :
    (replaceRoute hop routes).length = routes.length := by
  unfold replaceRoute
  split_ifs
  · rfl
  · split
    · exact List.length_set
    · rename_i hnone
      have hfree := List.findIdx?_eq_none_iff.mp hnone r hr
      simp [hmetric] at hfree

theorem replaceRoute_of_free (hfree : ∀ r ∈ routes, r.metric ≠ 0) :
    replaceRoute hop routes = .plain hop :: routes := by
  have hnone : routes.findIdx? (·.metric = 0) = none :=
    List.findIdx?_eq_none_iff.mpr fun r hr => by simpa using hfree r hr
  rw [replaceRoute, if_neg fun hmem => hfree _ hmem rfl, hnone]

theorem delRoute_replaceRoute_eq_iff :
    delRoute hop (replaceRoute hop routes) = routes ↔ ∀ r ∈ routes, r.metric ≠ 0 := by
  constructor
  · intro h r hr hmetric
    have hlen : (delRoute hop (replaceRoute hop routes)).length = routes.length - 1 := by
      rw [delRoute, List.length_eraseP_of_mem plain_mem_replaceRoute (by simp [Route.plain]),
        length_replaceRoute hr hmetric]
    have hpos := List.length_pos_of_mem hr
    rw [h] at hlen
    omega
  · intro hfree
    rw [replaceRoute_of_free hfree, delRoute, List.eraseP_cons_of_pos (by simp [Route.plain])]

end Routes

/-! ## Rules -/

variable [DecidableEq δ]

def defaultPriority : List (Rule δ) → ℕ
  | _ :: rule :: _ => rule.priority - 1
  | _ => 0

def Rule.leads (source : δ) (table : ℕ) (rule : Rule δ) : Bool :=
  rule.source = source && rule.table = table

def Rule.isPlain (source : δ) (table : ℕ) (rule : Rule δ) : Bool :=
  rule.leads source table && rule.others = []

def rulesBefore (rules : List (Rule δ)) : List (Rule δ) :=
  rules.takeWhile (·.priority ≤ defaultPriority rules)

def addRule (source : δ) (table : ℕ) (rules : List (Rule δ)) : List (Rule δ) :=
  if rules.any (·.isPlain source table) then rules
  else rulesBefore rules ++ ⟨defaultPriority rules, source, [], table⟩ ::
    rules.dropWhile (·.priority ≤ defaultPriority rules)

def delRule (source : δ) (table : ℕ) (rules : List (Rule δ)) : List (Rule δ) :=
  rules.eraseP (·.leads source table)

/-- The rule is not there, and none of the same look comes before its place. -/
def FreshRule (source : δ) (table : ℕ) (rules : List (Rule δ)) : Prop :=
  (∀ rule ∈ rules, rule.isPlain source table = false) ∧
    ∀ rule ∈ rulesBefore rules, rule.leads source table = false

section Rules

variable {source : δ} {table : ℕ} {rules : List (Rule δ)}

theorem addRule_of_any (h : rules.any (·.isPlain source table) = true) :
    addRule source table rules = rules := if_pos h

theorem any_addRule : (addRule source table rules).any (·.isPlain source table) = true := by
  unfold addRule
  split_ifs with h
  · exact h
  · simp [Rule.isPlain, Rule.leads]

theorem addRule_eq_iff :
    addRule source table rules = rules ↔ rules.any (·.isPlain source table) = true := by
  constructor
  · intro h
    rw [← h]
    exact any_addRule
  · exact addRule_of_any

theorem delRule_addRule_eq_iff :
    delRule source table (addRule source table rules) = rules ↔
      FreshRule source table rules := by
  by_cases hany : rules.any (·.isPlain source table) = true
  · obtain ⟨rule, hrule, hplain⟩ := List.any_eq_true.mp hany
    rw [addRule_of_any hany, delRule]
    constructor
    · intro h
      have hlead : rule.leads source table = true := by
        rw [Rule.isPlain, Bool.and_eq_true] at hplain
        exact hplain.1
      have hlen := List.length_eraseP_of_mem hrule hlead
      have hpos := List.length_pos_of_mem hrule
      rw [h] at hlen
      omega
    · intro h
      rw [h.1 rule hrule] at hplain
      cases hplain
  · have hnone : ∀ rule ∈ rules, rule.isPlain source table = false := by simpa using hany
    rw [addRule, if_neg hany, delRule]
    constructor
    · intro h
      refine ⟨hnone, fun rule hrule => ?_⟩
      by_contra hlead
      rw [List.eraseP_append_left (by simpa using hlead) _ hrule] at h
      have hmem : (⟨defaultPriority rules, source, [], table⟩ : Rule δ) ∈ rules :=
        (congrArg _ h).mp (List.mem_append_right _ List.mem_cons_self)
      have hplain := hnone _ hmem
      simp [Rule.isPlain, Rule.leads] at hplain
    · intro h
      rw [List.eraseP_append_right _ fun rule hrule => by simp [h.2 rule hrule],
        List.eraseP_cons_of_pos (by simp [Rule.leads])]
      exact List.takeWhile_append_dropWhile

end Rules

/-! ## Commands -/

inductive IpCommand (δ ν : Type*)
  | routeReplace (table : ℕ) (dest : δ) (hop : ν)
  | routeDel (table : ℕ) (dest : δ) (hop : ν)
  | routeFlush (table : ℕ)
  | ruleAdd (source : δ) (table : ℕ)
  | ruleDel (source : δ) (table : ℕ)
  deriving DecidableEq

namespace RoutingState

def setRoutes (s : RoutingState δ ν) (table : ℕ) (dest : δ) (routes : List (Route ν)) :
    RoutingState δ ν :=
  { s with tables := fun t d => if t = table ∧ d = dest then routes else s.tables t d }

variable {s : RoutingState δ ν} {table t : ℕ} {dest d : δ} {routes : List (Route ν)}

@[simp] theorem rules_setRoutes : (s.setRoutes table dest routes).rules = s.rules := rfl

@[simp] theorem tables_setRoutes_self :
    (s.setRoutes table dest routes).tables table dest = routes := if_pos ⟨rfl, rfl⟩

theorem tables_setRoutes_of_ne (h : ¬ (t = table ∧ d = dest)) :
    (s.setRoutes table dest routes).tables t d = s.tables t d := if_neg h

theorem setRoutes_eq_self : s.setRoutes table dest (s.tables table dest) = s := by
  refine RoutingState.ext (funext fun t => funext fun d => ?_) rfl
  by_cases hkey : t = table ∧ d = dest
  · rw [hkey.1, hkey.2, tables_setRoutes_self]
  · exact tables_setRoutes_of_ne hkey

end RoutingState

namespace IpCommand

open RoutingState

variable [DecidableEq ν]

def effect (s : RoutingState δ ν) : IpCommand δ ν → RoutingState δ ν
  | routeReplace table dest hop =>
    s.setRoutes table dest (replaceRoute hop (s.tables table dest))
  | routeDel table dest hop => s.setRoutes table dest (delRoute hop (s.tables table dest))
  | routeFlush table =>
    { s with tables := fun t d => if t = table then [] else s.tables t d }
  | ruleAdd source table => { s with rules := addRule source table s.rules }
  | ruleDel source table => { s with rules := delRule source table s.rules }

def refusal (s : RoutingState δ ν) : IpCommand δ ν → Option String
  | routeDel table dest hop =>
    if (s.tables table dest).any (·.hop = hop) then none
    else some "RTNETLINK answers: No such process"
  | ruleAdd source table =>
    if s.rules.any (·.isPlain source table) then some "RTNETLINK answers: File exists" else none
  | ruleDel source table =>
    if s.rules.any (·.leads source table) then none
    else some "RTNETLINK answers: No such file or directory"
  | _ => none

def effects (s : RoutingState δ ν) (cs : List (IpCommand δ ν)) : RoutingState δ ν :=
  cs.foldl effect s

/-- What the command adds is there already. -/
def Installed (s : RoutingState δ ν) : IpCommand δ ν → Prop
  | routeReplace table dest hop => .plain hop ∈ s.tables table dest
  | ruleAdd source table => s.rules.any (·.isPlain source table) = true
  | _ => False

variable {s : RoutingState δ ν} {c : IpCommand δ ν} {cs : List (IpCommand δ ν)} {table : ℕ}

theorem effect_of_refusal {stderr : String} (h : c.refusal s = some stderr) : c.effect s = s := by
  cases c with
  | routeReplace | routeFlush => cases h
  | routeDel table dest hop =>
    have hnone : ∀ r ∈ s.tables table dest, r.hop ≠ hop := by
      intro r hr heq
      rw [refusal, if_pos (List.any_eq_true.mpr ⟨r, hr, by simpa using heq⟩)] at h
      cases h
    have hsame : delRoute hop (s.tables table dest) = s.tables table dest :=
      List.eraseP_of_forall_not fun r hr => by simpa using hnone r hr
    rw [effect, hsame, setRoutes_eq_self]
  | ruleAdd source table =>
    rw [refusal] at h
    split_ifs at h with hany
    rw [effect, addRule_of_any hany]
  | ruleDel source table =>
    rw [refusal] at h
    split_ifs at h with hany
    have hsame : delRule source table s.rules = s.rules :=
      List.eraseP_of_forall_not (by simpa using hany)
    rw [effect, hsame]

/-! ## Commands on different destinations -/

theorem effects_append (s : RoutingState δ ν) (cs cs' : List (IpCommand δ ν)) :
    effects s (cs ++ cs') = effects (effects s cs) cs' := List.foldl_append

section Family

variable {β : Type*} {dest : β → δ} {f : β → List (Route ν) → List (Route ν)}
  {command : β → IpCommand δ ν}

def ActsOn (table : ℕ) (dest : β → δ) (f : β → List (Route ν) → List (Route ν))
    (command : β → IpCommand δ ν) : Prop :=
  ∀ s b, (command b).effect s = s.setRoutes table (dest b) (f b (s.tables table (dest b)))

theorem rules_effects (hf : ActsOn table dest f command) (s : RoutingState δ ν) (bs : List β) :
    (effects s (bs.map command)).rules = s.rules := by
  induction bs generalizing s with
  | nil => rfl
  | cons b bs ih =>
    change (effects ((command b).effect s) (bs.map command)).rules = _
    rw [ih, hf, rules_setRoutes]

theorem tables_effects_of_not (hf : ActsOn table dest f command) {bs : List β} {t : ℕ} {d : δ}
    (h : t = table → ∀ b ∈ bs, dest b ≠ d) (s : RoutingState δ ν) :
    (effects s (bs.map command)).tables t d = s.tables t d := by
  induction bs generalizing s with
  | nil => rfl
  | cons b bs ih =>
    change (effects ((command b).effect s) (bs.map command)).tables t d = _
    rw [ih (fun ht b' hb' => h ht b' (List.mem_cons_of_mem b hb')), hf]
    exact tables_setRoutes_of_ne fun ⟨ht, hd⟩ => h ht b List.mem_cons_self hd.symm

theorem tables_effects_of_mem (hf : ActsOn table dest f command) {bs : List β}
    (hbs : (bs.map dest).Nodup) {b : β} (hb : b ∈ bs) (s : RoutingState δ ν) :
    (effects s (bs.map command)).tables table (dest b) = f b (s.tables table (dest b)) := by
  induction bs generalizing s with
  | nil => cases hb
  | cons b' bs ih =>
    change (effects ((command b').effect s) (bs.map command)).tables table (dest b) = _
    obtain ⟨hnot, hnodup⟩ := List.nodup_cons.mp hbs
    rcases List.mem_cons.mp hb with rfl | hmem
    · have hother : ∀ c ∈ bs, dest c ≠ dest b := fun c hc heq =>
        hnot (heq ▸ List.mem_map_of_mem hc)
      rw [tables_effects_of_not hf fun _ => hother, hf, tables_setRoutes_self]
    · have hne : dest b ≠ dest b' := fun heq => hnot (heq ▸ List.mem_map_of_mem hmem)
      rw [ih hnodup hmem, hf, tables_setRoutes_of_ne fun hkey => hne hkey.2]

end Family

/-! ## Commands that have nothing to do -/

theorem effect_of_installed (h : c.Installed s) : c.effect s = s := by
  cases c with
  | routeReplace table dest hop => rw [effect, replaceRoute_eq_iff.mpr h, setRoutes_eq_self]
  | ruleAdd source table => rw [effect, addRule_of_any h]
  | routeDel | routeFlush | ruleDel => cases h

theorem effects_of_installed (h : ∀ c ∈ cs, c.Installed s) : effects s cs = s := by
  induction cs with
  | nil => rfl
  | cons c cs ih =>
    change effects (c.effect s) cs = s
    rw [effect_of_installed (h c List.mem_cons_self)]
    exact ih fun c' hc' => h c' (List.mem_cons_of_mem c hc')

def Sets : IpCommand δ ν → Prop
  | routeReplace _ _ _ | ruleAdd _ _ => True
  | _ => False

theorem installed_effect (hc : c.Sets) : c.Installed (c.effect s) := by
  cases c with
  | routeReplace table dest hop =>
    change Route.plain hop ∈ (s.setRoutes _ _ _).tables table dest
    rw [tables_setRoutes_self]
    exact plain_mem_replaceRoute
  | ruleAdd source table => exact any_addRule
  | routeDel | routeFlush | ruleDel => cases hc

def Separate : IpCommand δ ν → IpCommand δ ν → Prop
  | routeReplace table dest _, routeReplace table' dest' _ => ¬ (table = table' ∧ dest = dest')
  | ruleAdd _ _, ruleAdd _ _ => False
  | _, _ => True

theorem Installed.effect {c' : IpCommand δ ν} (h : c.Installed s) (hc' : c'.Sets)
    (hsep : Separate c c') : c.Installed (c'.effect s) := by
  cases c with
  | routeReplace table dest hop =>
    cases c' with
    | routeReplace table' dest' hop' =>
      change Route.plain hop ∈ (s.setRoutes _ _ _).tables table dest
      rwa [tables_setRoutes_of_ne hsep]
    | ruleAdd => exact h
    | routeDel | routeFlush | ruleDel => cases hc'
  | ruleAdd source table =>
    cases c' with
    | routeReplace => exact h
    | ruleAdd => cases hsep
    | routeDel | routeFlush | ruleDel => cases hc'
  | routeDel | routeFlush | ruleDel => cases h

theorem Installed.effects (h : c.Installed s) (hcs : ∀ c' ∈ cs, c'.Sets ∧ Separate c c') :
    c.Installed (effects s cs) := by
  induction cs generalizing s with
  | nil => exact h
  | cons c' cs ih =>
    obtain ⟨hsets, hsep⟩ := hcs c' List.mem_cons_self
    exact ih (h.effect hsets hsep) fun d hd => hcs d (List.mem_cons_of_mem c' hd)

theorem installed_effects (hsets : ∀ c ∈ cs, c.Sets) (hsep : cs.Pairwise Separate)
    (hc : c ∈ cs) : c.Installed (effects s cs) := by
  induction cs generalizing s with
  | nil => cases hc
  | cons c' cs ih =>
    obtain ⟨hfirst, hrest⟩ := List.pairwise_cons.mp hsep
    have hsets' : ∀ d ∈ cs, d.Sets := fun d hd => hsets d (List.mem_cons_of_mem c' hd)
    rcases List.mem_cons.mp hc with rfl | hmem
    · exact (installed_effect (hsets c List.mem_cons_self)).effects
        fun d hd => ⟨hsets' d hd, hfirst d hd⟩
    · exact ih hsets' hrest hmem

theorem effects_eq_iff (hsets : ∀ c ∈ cs, c.Sets) (hsep : cs.Pairwise Separate) :
    effects s cs = s ↔ ∀ c ∈ cs, c.Installed s := by
  constructor
  · intro h c hc
    rw [← h]
    exact installed_effects hsets hsep hc
  · exact effects_of_installed

end IpCommand

end SkadiCore.PolicyRouting
