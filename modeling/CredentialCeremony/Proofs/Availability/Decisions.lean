import CredentialCeremony.Proofs.Availability.Order
import CredentialCeremony.Proofs.Availability.Policy

set_option autoImplicit false

/-!
# Decisions on versions and on user agents

What a requirement says of a version is said of the order of the two, so the laws of that order
decide which of several requirements accept a version, and for which other versions they go on to do
so. A policy allows a user agent as soon as one rule covers it: only the set of its rules counts,
and more rules allow more.

Main statement: `Policy.decision_laws`.
-/

namespace CredentialCeremony

namespace Comparison

/-- The comparisons that ask for versions above the threshold. -/
def isLowerBound : Comparison → Bool
  | .greater | .greaterOrEqual => true
  | .less | .lessOrEqual | .equal => false

/-- The comparisons that ask for versions below the threshold. -/
def isUpperBound : Comparison → Bool
  | .less | .lessOrEqual => true
  | .greater | .greaterOrEqual | .equal => false

/-- Of the three strict comparisons, one holds of an order. -/
theorem existsUnique_holds (o : Ordering) :
    ∃! c, c ∈ [less, equal, greater] ∧ c.holds o = true := by
  cases o with
  | lt => exact ⟨.less, by decide, fun c => by cases c <;> decide⟩
  | eq => exact ⟨.equal, by decide, fun c => by cases c <;> decide⟩
  | gt => exact ⟨.greater, by decide, fun c => by cases c <;> decide⟩

end Comparison

/-! ## Requirements -/

namespace Requirement

variable {r : Requirement} {t v w : Version}

theorem accepts_less_iff : accepts ⟨.less, t⟩ v = true ↔ Version.compare v t = .lt := by
  rw [accepts, Comparison.holds, Ordering.isLT_iff_eq_lt]

theorem accepts_greaterOrEqual_iff :
    accepts ⟨.greaterOrEqual, t⟩ v = true ↔ (Version.compare v t).isGE = true := by
  rw [accepts, Comparison.holds]

theorem accepts_lessOrEqual_iff :
    accepts ⟨.lessOrEqual, t⟩ v = true ↔ (Version.compare v t).isLE = true := by
  rw [accepts, Comparison.holds]

/-- A lower bound that a version satisfies is satisfied by every greater one. -/
theorem accepts_of_isLowerBound (hr : r.comparison.isLowerBound = true)
    (hle : (Version.compare v w).isLE = true) (h : r.accepts v = true) : r.accepts w = true := by
  obtain ⟨comparison, t⟩ := r
  have hge : (Version.compare w v).isGE = true := Std.OrientedCmp.isGE_of_isLE hle
  cases comparison with
  | greater =>
    rw [accepts_greater_iff] at h ⊢
    exact Std.TransCmp.gt_of_isGE_of_gt hge h
  | greaterOrEqual =>
    rw [accepts_greaterOrEqual_iff] at h ⊢
    exact Std.TransCmp.isGE_trans hge h
  | less | lessOrEqual | equal => cases hr

/-- An upper bound that a version satisfies is satisfied by every smaller one. -/
theorem accepts_of_isUpperBound (hr : r.comparison.isUpperBound = true)
    (hle : (Version.compare w v).isLE = true) (h : r.accepts v = true) : r.accepts w = true := by
  obtain ⟨comparison, t⟩ := r
  cases comparison with
  | less =>
    rw [accepts_less_iff] at h ⊢
    exact Std.TransCmp.lt_of_isLE_of_lt hle h
  | lessOrEqual =>
    rw [accepts_lessOrEqual_iff] at h ⊢
    exact Std.TransCmp.isLE_trans hle h
  | greater | greaterOrEqual | equal => cases hr

end Requirement

/-! ## Rules and policies -/

/-- A rule that is a lower bound goes on to cover a user agent whose version grows. -/
theorem CompatibilityRule.covers_of_newer {rule : CompatibilityRule} {u : UserAgent} {v w : Version}
    (hrule : rule.requirement.comparison.isLowerBound = true) (hv : u.version = some v)
    (hle : (Version.compare v w).isLE = true) (h : rule.covers u = true) :
    rule.covers { u with version := some w } = true := by
  rw [covers_iff] at h ⊢
  obtain ⟨hplatform, hbrowser, x, hx, haccepts⟩ := h
  obtain rfl : x = v := Option.some.inj (hx.symm.trans hv)
  exact ⟨hplatform, hbrowser, w, rfl, Requirement.accepts_of_isLowerBound hrule hle haccepts⟩

namespace Policy

variable {p q : Policy} {u : UserAgent}

theorem allows_append (p q : Policy) (u : UserAgent) :
    allows ⟨p.rules ++ q.rules⟩ u = (p.allows u || q.allows u) :=
  List.any_append

/-- With more rules, more user agents are allowed. -/
theorem allows_of_subset (hpq : p.rules ⊆ q.rules) (h : p.allows u = true) : q.allows u = true := by
  rw [allows_iff] at h ⊢
  obtain ⟨rule, hrule, hcovers⟩ := h
  exact ⟨rule, hpq hrule, hcovers⟩

/-- Only the set of the rules counts. -/
theorem allows_congr (hpq : ∀ rule, rule ∈ p.rules ↔ rule ∈ q.rules) : p.allows u = q.allows u := by
  rw [Bool.eq_iff_iff]
  constructor
  · apply allows_of_subset
    exact fun rule hrule => (hpq rule).1 hrule
  · apply allows_of_subset
    exact fun rule hrule => (hpq rule).2 hrule

theorem allows_of_newer {v w : Version}
    (hp : ∀ rule ∈ p.rules, rule.requirement.comparison.isLowerBound = true)
    (hv : u.version = some v) (hle : (Version.compare v w).isLE = true) (h : p.allows u = true) :
    p.allows { u with version := some w } = true := by
  rw [allows_iff] at h ⊢
  obtain ⟨rule, hrule, hcovers⟩ := h
  exact ⟨rule, hrule, CompatibilityRule.covers_of_newer (hp rule hrule) hv hle hcovers⟩

/-- A user agent without a version is covered by no rule. -/
theorem allows_of_no_version (h : u.version = none) : p.allows u = false := by
  rw [Bool.eq_false_iff, ne_eq, allows_iff]
  rintro ⟨rule, -, hcovers⟩
  obtain ⟨-, -, v, hv, -⟩ := CompatibilityRule.covers_iff.1 hcovers
  rw [h] at hv
  cases hv

/-- Of the strict comparisons of a version with a threshold exactly one holds, and the others are
their opposites. A lower bound goes on to hold of greater versions, an upper bound of smaller ones.
Two lists of rules allow what either allows; neither the order nor the repeats of rules count, and
further rules withdraw nothing. Where all rules are lower bounds, a user agent stays allowed while
its version grows. Nothing is ever allowed without a readable version, and nothing is offered where
one of the interfaces is missing. -/
theorem decision_laws :
    (∀ t v, ∃! c, c ∈ [Comparison.less, .equal, .greater] ∧
      Requirement.accepts ⟨c, t⟩ v = true) ∧
    (∀ t v, Requirement.accepts ⟨.greaterOrEqual, t⟩ v = true ↔
      ¬ Requirement.accepts ⟨.less, t⟩ v = true) ∧
    (∀ t v, Requirement.accepts ⟨.lessOrEqual, t⟩ v = true ↔
      ¬ Requirement.accepts ⟨.greater, t⟩ v = true) ∧
    (∀ (r : Requirement) v w, r.comparison.isLowerBound = true →
      (Version.compare v w).isLE = true → r.accepts v = true → r.accepts w = true) ∧
    (∀ (r : Requirement) v w, r.comparison.isUpperBound = true →
      (Version.compare w v).isLE = true → r.accepts v = true → r.accepts w = true) ∧
    (∀ (p q : Policy) u, allows ⟨p.rules ++ q.rules⟩ u = (p.allows u || q.allows u)) ∧
    (∀ (p q : Policy) u, (∀ rule, rule ∈ p.rules ↔ rule ∈ q.rules) → p.allows u = q.allows u) ∧
    (∀ (p q : Policy) u, p.rules ⊆ q.rules → p.allows u = true → q.allows u = true) ∧
    (∀ (p : Policy) u v w, (∀ rule ∈ p.rules, rule.requirement.comparison.isLowerBound = true) →
      u.version = some v → (Version.compare v w).isLE = true → p.allows u = true →
        p.allows { u with version := some w } = true) ∧
    (∀ (p : Policy) u, u.version = none → p.allows u = false) ∧
    ∀ (p : Policy) (e : Environment), e.credentialsContainer = false ∨
      e.publicKeyCredential = false ∨ (UserAgent.parse e.userAgent).version = none →
        e.offersResidentKeyLogin p = false := by
  refine ⟨?_, ?_, ?_, ?_, ?_, allows_append, ?_, ?_, ?_, ?_, ?_⟩
  · intro t v
    exact Comparison.existsUnique_holds (Version.compare v t)
  · intro t v
    rw [Requirement.accepts_greaterOrEqual_iff, Requirement.accepts_less_iff]
    cases Version.compare v t <;> decide
  · intro t v
    rw [Requirement.accepts_lessOrEqual_iff, Requirement.accepts_greater_iff]
    cases Version.compare v t <;> decide
  · intro r v w
    exact Requirement.accepts_of_isLowerBound
  · intro r v w
    exact Requirement.accepts_of_isUpperBound
  · intro p q u
    exact allows_congr
  · intro p q u
    exact allows_of_subset
  · intro p u v w
    exact allows_of_newer
  · intro p u
    exact allows_of_no_version
  · rintro p e hmissing
    rw [Environment.offersResidentKeyLogin, Environment.hasWebauthn]
    rcases hmissing with hmissing | hmissing | hmissing
    · rw [hmissing]
      rfl
    · rw [hmissing, Bool.and_false]
      rfl
    · rw [allows_of_no_version hmissing, Bool.and_false]

/-- A version grows by segments behind a zero, a threshold has a zero more than the version below
it, and a rule comes twice; a recent Chrome is offered nothing without the interfaces. -/
theorem decision_laws_of_lengths :
    Requirement.accepts ⟨.greaterOrEqual, ⟨[118, 1, 0]⟩⟩ ⟨[118, 1]⟩ = true ∧
      Requirement.accepts ⟨.greaterOrEqual, ⟨[118, 1, 0]⟩⟩ ⟨[118, 1, 0, 0, 70]⟩ = true ∧
      Requirement.accepts ⟨.less, ⟨[118, 1, 0, 1]⟩⟩ ⟨[118, 1, 0]⟩ = true ∧
      Requirement.accepts ⟨.less, ⟨[118, 1, 0, 1]⟩⟩ ⟨[118, 0, 9999]⟩ = true ∧
      ∃ (p q : Policy) (u : UserAgent), p.rules.length = 3 ∧ q.rules.length = 2 ∧
        (∀ rule, rule ∈ p.rules ↔ rule ∈ q.rules) ∧ p.allows u = q.allows u ∧
        preset.rules ⊆ q.rules ∧ q.allows u = true ∧ u.version = some ⟨[118, 1, 1323]⟩ ∧
        preset.allows { u with version := some ⟨[118, 1, 1323, 0, 7]⟩ } = true ∧
        preset.allows { u with version := none } = false ∧
        (Environment.withoutWebauthn
          "Mozilla/5.0 (Windows NT 10.0) Chrome/119.0.0.0").offersResidentKeyLogin p = false := by
  obtain ⟨-, -, -, hlower, hupper, -, hsame, hmore, hnewer, hnone, hmissing⟩ := decision_laws
  let edge : CompatibilityRule := ⟨.windows, .edge, .less, ⟨[5]⟩⟩
  let chrome : CompatibilityRule := ⟨.windows, .chrome, .greater, ⟨[118, 1, 1322]⟩⟩
  let u : UserAgent := ⟨.windows, .chrome, some ⟨[118, 1, 1323]⟩⟩
  have hrules : ∀ rule, rule ∈ [chrome, edge, chrome] ↔ rule ∈ [edge, chrome] := by
    intro rule
    simp only [List.mem_cons, List.not_mem_nil, or_false]
    tauto
  have hpreset : preset.rules ⊆ [edge, chrome] := List.subset_cons_self edge [chrome]
  have hallowed : preset.allows u = true := by decide
  exact ⟨by decide, hlower _ ⟨[118, 1]⟩ _ rfl (by decide) (by decide), by decide,
    hupper _ ⟨[118, 1, 0]⟩ _ rfl (by decide) (by decide), ⟨[chrome, edge, chrome]⟩,
    ⟨[edge, chrome]⟩, u, rfl, rfl, hrules, hsame _ _ u hrules, hpreset,
    hmore _ _ u hpreset hallowed, rfl, hnewer _ u _ _ (by decide) rfl (by decide) hallowed,
    hnone _ _ rfl, hmissing _ _ (.inl rfl)⟩

end Policy
end CredentialCeremony
