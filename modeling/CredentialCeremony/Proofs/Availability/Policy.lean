import CredentialCeremony.Availability.Policy
import CredentialCeremony.Proofs.Availability.UserAgent

set_option autoImplicit false

/-!
# The user agents of the preset policy

A rule covers a user agent by its platform, its browser and its version. The preset policy has one
rule, so that the user agents to which it offers a login without a username are told by their text
alone.

Main statement: such a login is offered exactly if both interfaces exist and the text announces a
recent Chrome on Windows and no other browser (`offersResidentKeyLogin_preset_iff`).
-/

namespace CredentialCeremony

theorem CompatibilityRule.covers_iff {r : CompatibilityRule} {u : UserAgent} :
    r.covers u = true ↔ u.platform = r.platform ∧ u.browser = r.browser ∧
      ∃ v, u.version = some v ∧ r.requirement.accepts v = true := by
  rw [covers, Bool.and_eq_true, Bool.and_eq_true, beq_iff_eq, beq_iff_eq, Option.any_eq_true,
    and_assoc]

/-- The text of a user agent that is Chrome on Windows, after version 118.1.1322. -/
structure UserAgent.RecentChromeOnWindows (text : List Char) : Prop where
  windows : "Windows".toList <:+: text
  no_other : ∀ product ∈ otherProducts, ∀ part ∈ Text.parts text, ¬ Announces product part
  recent : ∃ behind run v, ChromeAnnounced (Text.parts text) behind ∧
    Text.IsLongestRun Version.isDigitOrDot run behind ∧ Version.Dotted run v ∧
    v.Exceeds ⟨[118, 1, 1322]⟩

theorem Policy.preset_allows_iff {text : String} :
    preset.allows (UserAgent.parse text) = true ↔
      UserAgent.RecentChromeOnWindows text.toList := by
  rw [allows_iff, preset]
  simp only [List.mem_singleton, exists_eq_left, CompatibilityRule.covers_iff,
    Requirement.accepts_greater_iff, Version.compare_eq_gt_iff]
  constructor
  · rintro ⟨hplatform, hbrowser, v, hversion, hexceeds⟩
    obtain ⟨hothers, behind, run, hbehind, hrun, hdotted⟩ :=
      UserAgent.parse_eq_chrome_iff.1 ⟨hbrowser, hversion⟩
    exact ⟨UserAgent.platformOf_eq_windows_iff.1 hplatform, hothers, behind, run, v, hbehind, hrun,
      hdotted, hexceeds⟩
  · rintro ⟨hwindows, hothers, behind, run, v, hbehind, hrun, hdotted, hexceeds⟩
    obtain ⟨hbrowser, hversion⟩ :=
      UserAgent.parse_eq_chrome_iff.2 ⟨hothers, behind, run, hbehind, hrun, hdotted⟩
    exact ⟨UserAgent.platformOf_eq_windows_iff.2 hwindows, hbrowser, v, hversion, hexceeds⟩

theorem Environment.hasWebauthn_iff {e : Environment} :
    e.hasWebauthn = true ↔ e.credentialsContainer = true ∧ e.publicKeyCredential = true := by
  rw [hasWebauthn, Bool.and_eq_true]

/-- Under the preset policy, a login without a username is offered exactly where both interfaces
exist and the user agent is a recent Chrome on Windows. -/
theorem Environment.offersResidentKeyLogin_preset_iff (e : Environment) :
    e.offersResidentKeyLogin .preset = true ↔
      e.credentialsContainer = true ∧ e.publicKeyCredential = true ∧
        UserAgent.RecentChromeOnWindows e.userAgent.toList := by
  rw [offersResidentKeyLogin, Bool.and_eq_true, hasWebauthn_iff, Policy.preset_allows_iff,
    and_assoc]

end CredentialCeremony
