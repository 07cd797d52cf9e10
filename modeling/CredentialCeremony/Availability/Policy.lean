import CredentialCeremony.Availability.Requirement
import CredentialCeremony.Availability.UserAgent

set_option autoImplicit false

/-!
# Where a login without a username is offered

A login that relies on a resident key is offered where it is known to work. A policy lists rules;
a user agent is allowed as soon as one rule covers it. A user agent without a readable version is
never covered.

Main statement: a user agent is allowed exactly if a rule of the policy covers it
(`Policy.allows_iff`).
-/

namespace CredentialCeremony

/-- A browser on a platform, from some version on. -/
structure CompatibilityRule where
  platform : Platform
  browser : Browser
  requirement : Requirement
  deriving DecidableEq, Repr, Inhabited

/-- A rule in a document. -/
def CompatibilityRule.schema : Schema CompatibilityRule :=
  .record
    (.required "platform" (.choice Platform.names) <|
      .required "browser" (.choice Browser.names) <|
      .required "requirement" Requirement.schema <|
      .nil)
    { build := fun (platform, browser, requirement, ()) => ⟨platform, browser, requirement⟩
      parts := fun r => (r.platform, r.browser, r.requirement, ()) }

/-- Whether a rule covers a user agent. -/
def CompatibilityRule.covers (r : CompatibilityRule) (u : UserAgent) : Bool :=
  u.platform == r.platform && u.browser == r.browser && u.version.any r.requirement.accepts

/-- The user agents to which a login without a username is offered. -/
structure Policy where
  rules : List CompatibilityRule
  deriving DecidableEq, Repr, Inhabited

namespace Policy

/-- A policy in a document. -/
def schema : Schema Policy :=
  .record (.required "rules" (.list CompatibilityRule.schema) <| .nil)
    { build := fun (rules, ()) => ⟨rules⟩
      parts := fun p => (p.rules, ()) }

/-- Whether a user agent is allowed. -/
def allows (p : Policy) (u : UserAgent) : Bool := p.rules.any fun rule => rule.covers u

/-- Chrome on Windows, after version 118.1.1322. -/
def preset : Policy := ⟨[⟨.windows, .chrome, .greater, ⟨[118, 1, 1322]⟩⟩]⟩

theorem allows_iff {p : Policy} {u : UserAgent} :
    p.allows u = true ↔ ∃ rule ∈ p.rules, rule.covers u = true := by
  simp [allows]

end Policy

/-- The capabilities of the environment that a page runs in. -/
structure Environment where
  credentialsContainer : Bool
  publicKeyCredential : Bool
  userAgent : String
  deriving DecidableEq, Repr, Inhabited

namespace Environment

/-- An environment with both interfaces. -/
def withWebauthn (userAgent : String) : Environment := ⟨true, true, userAgent⟩

/-- An environment with neither interface. -/
def withoutWebauthn (userAgent : String) : Environment := ⟨false, false, userAgent⟩

/-- Whether both interfaces exist. -/
def hasWebauthn (e : Environment) : Bool := e.credentialsContainer && e.publicKeyCredential

/-- Whether a login without a username can be offered. -/
def offersResidentKeyLogin (e : Environment) (p : Policy) : Bool :=
  e.hasWebauthn && p.allows (UserAgent.parse e.userAgent)

end Environment
end CredentialCeremony
