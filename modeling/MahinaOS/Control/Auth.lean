import MahinaOS.Control.Protocol
import Mathlib.Data.List.Infix

/-!
# Authorisation

`CapabilityAuthorizer::authorize` (`mahina-control/src/auth.rs`) decides from the kernel's
credentials of the peer, the command and the capability token of the request.  Queries are open to
every peer; every other command needs root or a token that names one of the scopes of the command.

The privileged commands go through one check, `requireScope`, each with its own scopes and texts.
Health attestation has a check of its own: it asks for uid 0 itself, and does not tell an empty
token from another one that grants nothing.
-/

namespace Control

inductive IdentityTier where
  | system
  | administrator
  | service (uid : UInt32)
  | lunaAI
  | user (uid : UInt32)
  deriving DecidableEq, Repr

namespace IdentityTier

def lunaaiUid : UInt32 := 950
def rootUid : UInt32 := 0

/-- `IdentityTier::from_uid`. -/
def fromUid (uid : UInt32) : IdentityTier :=
  if uid = rootUid then system
  else if uid = lunaaiUid then lunaAI
  else if uid ≤ 999 then service uid
  else user uid

def asStr : IdentityTier → String
  | system => "System"
  | administrator => "Administrator"
  | service _ => "Service"
  | lunaAI => "LunaAI"
  | user _ => "User"

def isPrivileged : IdentityTier → Bool
  | system | administrator => true
  | service _ | lunaAI | user _ => false

end IdentityTier

/-- `str::contains`. -/
def contains (text part : String) : Bool := decide (part.toList <:+: text.toList)

/-- Root or administrator, or a token that grants the command.  `lacksScope` is the text for a token
that does not, `lacksAuthority` the one for a request without a token. -/
def requireScope (tier : IdentityTier) (token : Option String) (grants : String → Bool)
    (lacksScope lacksAuthority : String) : Except ControlError IdentityTier :=
  if tier.isPrivileged then .ok tier
  else
    match token with
    | some t =>
      if t.isEmpty then .error (.tokenInvalid "Empty capability token")
      else if grants t then .ok tier
      else .error (.permissionDenied lacksScope)
    | none => .error (.permissionDenied lacksAuthority)

/-- The text for a request without a token: who asks, and what it takes. -/
def lacksAuthority (tier : IdentityTier) (peer : PeerCredentials) (what : String) : String :=
  "Caller '" ++ tier.asStr ++ "' (UID " ++ toString peer.uid ++ ") lacks authority " ++ what ++
    ". Requires root or Capability Token."

/-- `CapabilityAuthorizer::authorize`. -/
def authorize (peer : PeerCredentials) (command : DomainCommand) (token : Option String) :
    Except ControlError IdentityTier :=
  let tier := IdentityTier.fromUid peer.uid
  match command with
  | .systemGetState | .servicesList | .servicesStatus _ | .usersList | .packagesList | .storageList
  | .generationsGetCurrent | .generationsList => .ok tier
  | .systemReboot | .systemShutdown =>
    requireScope tier token (fun _ => false)
      "Capability tokens for system power control require Tier 1 human confirmation"
      (lacksAuthority tier peer ("for '" ++ command.methodName ++ "'"))
  | .servicesStart name | .servicesStop name | .servicesRestart name | .servicesReload name =>
    requireScope tier token
      (fun t => contains t "services.mutate" || contains t ("service:" ++ name))
      ("Capability token lacks required scope for service '" ++ name ++ "'")
      (lacksAuthority tier peer ("to mutate service '" ++ name ++ "'"))
  | .packagesInstall target =>
    requireScope tier token
      (fun t => contains t "packages.mutate" || contains t "packages.install" ||
        contains t ("pkg:" ++ target))
      ("Capability token lacks required scope to install package '" ++ target ++ "'")
      (lacksAuthority tier peer ("to install package '" ++ target ++ "'"))
  | .packagesRemove name =>
    requireScope tier token
      (fun t => contains t "packages.mutate" || contains t "packages.remove" ||
        contains t ("pkg:" ++ name))
      ("Capability token lacks required scope to remove package '" ++ name ++ "'")
      (lacksAuthority tier peer ("to remove package '" ++ name ++ "'"))
  | .storageMount source target _ _ =>
    requireScope tier token
      (fun t => contains t "storage.mutate" || contains t "storage.mount")
      ("Capability token lacks required scope to mount '" ++ source ++ "' on '" ++ target ++ "'")
      (lacksAuthority tier peer ("to mount '" ++ source ++ "' on '" ++ target ++ "'"))
  | .generationsRecoveryCapabilities => .ok tier
  | .generationsMarkHealthy _ =>
    if peer.uid = 0 then .ok tier
    else if token.any fun t =>
        contains t "system.attest" || contains t "generation.mark_healthy" then
      .ok tier
    else
      .error (.permissionDenied
        "Health attestation requires system root credentials (UID 0) or system attestation token")
  | .generationsCreate _ | .generationsActivate _ | .generationsRollback _ | .generationsPin _ _ =>
    requireScope tier token
      (fun t => contains t "generation.mutate" || contains t "boot.modify" ||
        contains t "system.modify")
      "Capability token lacks required scope ('generation.mutate' or 'boot.modify')"
      (lacksAuthority tier peer "for generation mutation")

/-- Only root is privileged. -/
theorem IdentityTier.isPrivileged_fromUid {uid : UInt32} (h : uid ≠ 0) :
    (IdentityTier.fromUid uid).isPrivileged = false := by
  have hroot : uid ≠ rootUid := h
  rw [fromUid, if_neg hroot]
  split
  · rfl
  · split <;> rfl

/-- Without a token nobody but root may change anything, and everybody may ask. -/
theorem authorize_tokenless {peer : PeerCredentials} (h : peer.uid ≠ 0) (command : DomainCommand) :
    (∃ tier, authorize peer command none = .ok tier) ↔ command.isMutating = false := by
  have hpriv := IdentityTier.isPrivileged_fromUid h
  cases command with
  | generationsMarkHealthy id =>
    refine iff_of_false ?_ nofun
    rintro ⟨tier, hr⟩
    rw [authorize, if_neg h] at hr
    cases hr
  | systemGetState | servicesList | servicesStatus | usersList | packagesList | storageList
  | generationsGetCurrent | generationsList | generationsRecoveryCapabilities =>
    exact iff_of_true ⟨_, rfl⟩ rfl
  | systemReboot | systemShutdown | servicesStart | servicesStop | servicesRestart
  | servicesReload | packagesInstall | packagesRemove | storageMount | generationsCreate
  | generationsActivate | generationsRollback | generationsPin =>
    refine iff_of_false ?_ nofun
    rintro ⟨tier, hr⟩
    simp [authorize, requireScope, hpriv] at hr

end Control
