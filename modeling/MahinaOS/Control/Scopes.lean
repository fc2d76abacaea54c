import MahinaOS.Control.Auth
import MahinaOS.Lib.Needle

/-!
# Tokens that name single services and packages

A capability token is a text, and `authorize` looks for the scopes of a command inside it.  A token
that lists `service:dbus` and `pkg:vim` is meant to allow its holder the commands on `dbus` and on
`vim` and nothing else.

`scopes` reads a token as a list with commas and spaces between the entries, and `ItemsOnly` says
that each entry names a single service or package.  For such tokens

* `accepts_iff_contains`: a command on an item is accepted exactly if the token has the scope of
  the item inside it, or one of the wide scopes of the command;
* `contains_scope_iff` and `contains_wide_iff` read this in terms of the names that are listed: the
  scope of an item is inside the token also if a listed name merely *starts* with the name of the
  item, or has a scope inside itself;
* **`accepts_iff_listed_iff`**: when the decision is the one that the list says (`Overlaps`).
-/

namespace Control

open List

/-! ## Items and their scopes -/

/-- What a single scope is about. -/
inductive ItemKind where
  | service
  | pkg
  deriving DecidableEq, Repr

def ItemKind.tag : ItemKind → String
  | service => "service"
  | pkg => "pkg"

/-- `service:<name>` and `pkg:<name>`. -/
def ItemKind.scope (kind : ItemKind) (name : List Char) : List Char :=
  kind.tag.toList ++ ':' :: name

/-- The service or the package that a command changes. -/
def DomainCommand.item : DomainCommand → Option (ItemKind × String)
  | servicesStart name | servicesStop name | servicesRestart name | servicesReload name =>
    some (.service, name)
  | packagesInstall name | packagesRemove name => some (.pkg, name)
  | _ => none

/-- The scopes that allow the command on every service or package. -/
def DomainCommand.wideScopes : DomainCommand → List String
  | servicesStart _ | servicesStop _ | servicesRestart _ | servicesReload _ => ["services.mutate"]
  | packagesInstall _ => ["packages.mutate", "packages.install"]
  | packagesRemove _ => ["packages.mutate", "packages.remove"]
  | _ => []

theorem DomainCommand.wideScopes_subset (cmd : DomainCommand) :
    cmd.wideScopes ⊆
      ["services.mutate", "packages.mutate", "packages.install", "packages.remove"] := by
  cases cmd <;> simp [wideScopes]

/-- The peer may have the command with this token. -/
def Accepted (peer : PeerCredentials) (cmd : DomainCommand) (token : String) : Prop :=
  ∃ tier, authorize peer cmd (some token) = .ok tier

theorem requireScope_some {tier : IdentityTier} (htier : tier.isPrivileged = false) (t : String)
    (grants : String → Bool) (lacksScope lacksAuthority : String) :
    (∃ tier', requireScope tier (some t) grants lacksScope lacksAuthority = .ok tier') ↔
      t ≠ "" ∧ grants t = true := by
  simp only [requireScope, htier]
  by_cases hempty : t.isEmpty = true
  · have hnil : t = "" := by simpa using hempty
    simp [hnil]
  · have hne : t ≠ "" := by simpa using hempty
    cases hg : grants t <;> simp [hne]

theorem ne_empty_of_contains {t part : String} (hpart : part ≠ "") (h : contains t part = true) :
    t ≠ "" := by
  rintro rfl
  rw [contains, decide_eq_true_eq] at h
  exact hpart (String.toList_eq_nil_iff.1 (infix_nil.1 h))

/-- The texts that `authorize` looks for. -/
def DomainCommand.granting (cmd : DomainCommand) (kind : ItemKind) (name : String) : List String :=
  cmd.wideScopes ++ [kind.tag ++ ":" ++ name]

variable {cmd : DomainCommand} {kind : ItemKind} {peer : PeerCredentials} {name : List Char}
  {token : String}

/-- The commands on items go through one check. -/
theorem authorize_item (peer : PeerCredentials) {name : String}
    (hitem : cmd.item = some (kind, name)) (token : Option String) :
    ∃ lacksScope lacksAuthority, authorize peer cmd token =
      requireScope (IdentityTier.fromUid peer.uid) token
        (fun t => (cmd.granting kind name).any (contains t)) lacksScope lacksAuthority := by
  cases cmd with
  | servicesStart n | servicesStop n | servicesRestart n | servicesReload n =>
    obtain ⟨⟩ := hitem
    simp only [DomainCommand.granting, DomainCommand.wideScopes, cons_append, nil_append, any_cons,
      any_nil, Bool.or_false]
    exact ⟨_, _, rfl⟩
  | packagesInstall n | packagesRemove n =>
    obtain ⟨⟩ := hitem
    simp only [DomainCommand.granting, DomainCommand.wideScopes, cons_append, nil_append, any_cons,
      any_nil, Bool.or_false, ← Bool.or_assoc]
    exact ⟨_, _, rfl⟩
  | _ => cases hitem

theorem granting_ne_empty {name part : String} (h : part ∈ cmd.granting kind name) : part ≠ "" := by
  rcases mem_append.1 h with hwide | hscope
  · have hall : ∀ wide ∈ ["services.mutate", "packages.mutate", "packages.install",
        "packages.remove"], wide ≠ "" := by decide
    exact hall part (cmd.wideScopes_subset hwide)
  · rw [mem_singleton.1 hscope]
    cases kind <;> simp [ItemKind.tag]

/-- **What is accepted.**  A command on an item is accepted from a peer that is not root exactly if
the token has the scope of the item inside it, or one of the wide scopes. -/
theorem accepts_iff_contains (huid : peer.uid ≠ 0) {name : String}
    (hitem : cmd.item = some (kind, name)) (token : String) :
    Accepted peer cmd token ↔
      kind.scope name.toList <:+: token.toList ∨
        ∃ wide ∈ cmd.wideScopes, wide.toList <:+: token.toList := by
  obtain ⟨lacksScope, lacksAuthority, hauth⟩ := authorize_item peer hitem (some token)
  have hscope : (kind.tag ++ ":" ++ name).toList = kind.scope name.toList := by
    simp [ItemKind.scope]
  have hgrants : (cmd.granting kind name).any (contains token) = true ↔
      kind.scope name.toList <:+: token.toList ∨
        ∃ wide ∈ cmd.wideScopes, wide.toList <:+: token.toList := by
    simp only [DomainCommand.granting, any_append, any_cons, any_nil, Bool.or_false,
      Bool.or_eq_true, any_eq_true, contains, decide_eq_true_eq, hscope]
    exact or_comm
  rw [Accepted, hauth, requireScope_some (IdentityTier.isPrivileged_fromUid huid), hgrants,
    and_iff_right_iff_imp, ← hgrants, any_eq_true]
  rintro ⟨part, hmem, hpart⟩
  exact ne_empty_of_contains (granting_ne_empty hmem) hpart

/-! ## Tokens as lists -/

def isSeparator (c : Char) : Bool := c == ',' || c == ' '

def scopes (token : String) : List (List Char) :=
  (token.toList.splitOnP isSeparator).filter fun entry => !entry.isEmpty

/-- The token lists the scope of the item. -/
def Lists (token : String) (kind : ItemKind) (name : List Char) : Prop :=
  kind.scope name ∈ scopes token

instance (token : String) (kind : ItemKind) (name : List Char) :
    Decidable (Lists token kind name) :=
  inferInstanceAs (Decidable (_ ∈ _))

/-- Every entry of the token is the scope of one item. -/
def ItemsOnly (token : String) : Prop :=
  ∀ entry ∈ scopes token, ∃ kind name, entry = ItemKind.scope kind name

theorem isScope_iff {entry : List Char} :
    (∃ kind name, entry = ItemKind.scope kind name) ↔
      ItemKind.service.scope [] <+: entry ∨ ItemKind.pkg.scope [] <+: entry := by
  constructor
  · rintro ⟨kind, name, rfl⟩
    cases kind
    · exact .inl ⟨name, by simp [ItemKind.scope]⟩
    · exact .inr ⟨name, by simp [ItemKind.scope]⟩
  · rintro (⟨name, rfl⟩ | ⟨name, rfl⟩)
    · exact ⟨.service, name, by simp [ItemKind.scope]⟩
    · exact ⟨.pkg, name, by simp [ItemKind.scope]⟩

instance (token : String) : Decidable (ItemsOnly token) :=
  decidable_of_iff
    (∀ entry ∈ scopes token, ItemKind.service.scope [] <+: entry ∨ ItemKind.pkg.scope [] <+: entry)
    (forall_congr' fun _ => imp_congr_right fun _ => isScope_iff.symm)

/-- A text without separators is inside a token exactly if it is inside one of its entries. -/
theorem infix_token_iff {word : List Char} (hne : word ≠ [])
    (hword : ∀ c ∈ word, isSeparator c = false) (token : String) :
    word <:+: token.toList ↔ ∃ entry ∈ scopes token, word <:+: entry := by
  rw [Needle.infix_iff_splitOnP hword]
  refine exists_congr fun entry => ?_
  rw [scopes, mem_filter]
  constructor
  · rintro ⟨hmem, hin⟩
    refine ⟨⟨hmem, ?_⟩, hin⟩
    rcases entry with - | ⟨c, entry⟩
    · exact absurd (infix_nil.1 hin) hne
    · rfl
  · rintro ⟨⟨hmem, -⟩, hin⟩
    exact ⟨hmem, hin⟩

theorem Lists.infix_token (h : Lists token kind name) : kind.scope name <:+: token.toList :=
  (Needle.infix_of_mem_splitOnP (mem_filter.1 h).1).1

theorem ItemsOnly.exists_iff (h : ItemsOnly token) {p : List Char → Prop} :
    (∃ entry ∈ scopes token, p entry) ↔
      ∃ kind name, Lists token kind name ∧ p (kind.scope name) := by
  constructor
  · rintro ⟨entry, hmem, hp⟩
    obtain ⟨kind, name, rfl⟩ := h entry hmem
    exact ⟨kind, name, hmem, hp⟩
  · rintro ⟨kind, name, hmem, hp⟩
    exact ⟨_, hmem, hp⟩

theorem colon_notMem_tag (kind : ItemKind) : ':' ∉ kind.tag.toList := by
  cases kind <;> decide

theorem tag_suffix_iff {kind' : ItemKind} :
    kind.tag.toList <:+ kind'.tag.toList ↔ kind = kind' := by
  cases kind <;> cases kind' <;> decide

theorem isSeparator_of_any {l : List Char} (h : l.any isSeparator = false) :
    ∀ c ∈ l, isSeparator c = false :=
  fun c hc => Bool.eq_false_iff.2 (any_eq_false.1 h c hc)

/-- **A wide scope inside a token.**  It is inside one of the names that are listed. -/
theorem contains_wide_iff (h : ItemsOnly token) {wide : String} (hwide : wide ∈ cmd.wideScopes) :
    wide.toList <:+: token.toList ↔ ∃ kind name, Lists token kind name ∧ wide.toList <:+: name := by
  have hall : ∀ wide ∈ ["services.mutate", "packages.mutate", "packages.install",
      "packages.remove"], wide.toList ≠ [] ∧ ':' ∉ wide.toList ∧
        wide.toList.any isSeparator = false ∧
        ¬ wide.toList <:+: ItemKind.service.tag.toList ∧
        ¬ wide.toList <:+: ItemKind.pkg.tag.toList := by
    decide
  obtain ⟨hne, hcolon, hsep, hservice, hpkg⟩ := hall wide (cmd.wideScopes_subset hwide)
  have htag (kind : ItemKind) : ¬ wide.toList <:+: kind.tag.toList := by
    cases kind
    · exact hservice
    · exact hpkg
  rw [infix_token_iff hne (isSeparator_of_any hsep), h.exists_iff]
  refine exists_congr fun kind => exists_congr fun name => and_congr_right fun _ => ?_
  rw [ItemKind.scope, Needle.infix_append_cons hcolon, or_iff_right (htag kind)]

/-- **The scope of an item inside a token.**  A listed name of the same kind starts with the name of
the item, or some listed name has the whole scope inside it. -/
theorem contains_scope_iff (h : ItemsOnly token) (kind : ItemKind)
    (hname : ∀ c ∈ name, isSeparator c = false) :
    kind.scope name <:+: token.toList ↔
      (∃ name', Lists token kind name' ∧ name <+: name') ∨
        ∃ kind' name', Lists token kind' name' ∧ kind.scope name <:+: name' := by
  have hne : kind.scope name ≠ [] := by simp [ItemKind.scope]
  have hsep : ∀ c ∈ kind.scope name, isSeparator c = false := by
    have htag : kind.tag.toList.any isSeparator = false := by cases kind <;> decide
    intro c hc
    rcases mem_append.1 hc with hc | hc
    · exact isSeparator_of_any htag c hc
    · rcases mem_cons.1 hc with rfl | hc
      · rfl
      · exact hname c hc
  have hentry (kind' : ItemKind) (name' : List Char) : kind.scope name <:+: kind'.scope name' ↔
        kind = kind' ∧ name <+: name' ∨ kind.scope name <:+: name' := by
    rw [ItemKind.scope, ItemKind.scope,
      Needle.tagged_infix_iff (colon_notMem_tag kind) (colon_notMem_tag kind'), tag_suffix_iff]
  rw [infix_token_iff hne hsep, h.exists_iff]
  simp only [hentry, and_or_left, exists_or]
  refine or_congr_left ?_
  constructor
  · rintro ⟨_, name', hmem, rfl, hpre⟩
    exact ⟨name', hmem, hpre⟩
  · rintro ⟨name', hmem, hpre⟩
    exact ⟨kind, name', hmem, rfl, hpre⟩

/-! ## Accepted and listed -/

/-- Something in the token reads like a scope for the command: a listed name of the kind starts with
the name of the item, a listed name has the scope of the item or a wide scope inside it, or the item
has a separator in its name and the token goes on as the name does. -/
def Overlaps (token : String) (cmd : DomainCommand) (kind : ItemKind) (name : List Char) : Prop :=
  (∃ name', Lists token kind name' ∧ name <+: name') ∨
    (∃ kind' name', Lists token kind' name' ∧
      (kind.scope name <:+: name' ∨ ∃ wide ∈ cmd.wideScopes, wide.toList <:+: name')) ∨
    (∃ c ∈ name, isSeparator c = true) ∧ kind.scope name <:+: token.toList

/-- What is accepted, in terms of the names that the token lists. -/
theorem accepted_iff_overlaps (huid : peer.uid ≠ 0) {name : String}
    (hitem : cmd.item = some (kind, name)) (htoken : ItemsOnly token) :
    Accepted peer cmd token ↔ Overlaps token cmd kind name.toList := by
  rw [accepts_iff_contains huid hitem]
  have hwide : (∃ wide ∈ cmd.wideScopes, wide.toList <:+: token.toList) ↔
      ∃ kind' name', Lists token kind' name' ∧ ∃ wide ∈ cmd.wideScopes, wide.toList <:+: name' := by
    constructor
    · rintro ⟨wide, hmem, hin⟩
      obtain ⟨kind', name', hlist, hin'⟩ := (contains_wide_iff htoken hmem).1 hin
      exact ⟨kind', name', hlist, wide, hmem, hin'⟩
    · rintro ⟨kind', name', hlist, wide, hmem, hin⟩
      exact ⟨wide, hmem, (contains_wide_iff htoken hmem).2 ⟨kind', name', hlist, hin⟩⟩
  rw [hwide]
  constructor
  · rintro (hin | ⟨kind', name', hlist, hw⟩)
    · by_cases hsep : ∃ c ∈ name.toList, isSeparator c = true
      · exact .inr (.inr ⟨hsep, hin⟩)
      · have hplain : ∀ c ∈ name.toList, isSeparator c = false :=
          fun c hc => by simpa using fun hp => hsep ⟨c, hc, hp⟩
        rcases (contains_scope_iff htoken kind hplain).1 hin with h | ⟨kind', name', hlist, hs⟩
        · exact .inl h
        · exact .inr (.inl ⟨kind', name', hlist, .inl hs⟩)
    · exact .inr (.inl ⟨kind', name', hlist, .inr hw⟩)
  · rintro (⟨name', hlist, hpre⟩ | ⟨kind', name', hlist, hs | hw⟩ | ⟨-, hin⟩)
    · have hscope : kind.scope name.toList <+: kind.scope name' :=
        (prefix_append_right_inj _).2 (cons_prefix_cons.2 ⟨rfl, hpre⟩)
      exact .inl (hscope.isInfix.trans hlist.infix_token)
    · have hname : name' <:+ kind'.scope name' := (suffix_cons ':' name').trans (suffix_append _ _)
      exact .inl (hs.trans (hname.isInfix.trans hlist.infix_token))
    · exact .inr ⟨kind', name', hlist, hw⟩
    · exact .inl hin

/-- **Whether a token is read as the list that it is.**  For every peer but root, every token that
lists single items and every service or package, a mutating command on the item is accepted exactly
if the item is listed — provided that it is listed, or that nothing in the token reads like a scope
for it. -/
theorem accepts_iff_listed_iff {peer : PeerCredentials} (huid : peer.uid ≠ 0)
    {cmd : DomainCommand} {kind : ItemKind} {name : String}
    (hitem : cmd.item = some (kind, name)) {token : String} (htoken : ItemsOnly token) :
    (Accepted peer cmd token ↔ Lists token kind name.toList) ↔
      (Lists token kind name.toList ∨ ¬ Overlaps token cmd kind name.toList) := by
  have hlist : Lists token kind name.toList → Overlaps token cmd kind name.toList :=
    fun h => .inl ⟨_, h, prefix_rfl⟩
  rw [accepted_iff_overlaps huid hitem htoken]
  constructor
  · intro h
    by_cases hl : Lists token kind name.toList
    · exact .inl hl
    · exact .inr fun ho => hl (h.1 ho)
  · rintro (hl | ho)
    · exact iff_of_true (hlist hl) hl
    · exact iff_of_false ho fun hl => ho (hlist hl)

/-- A token for `dbus` and `vim` is read as it should be for `dbus`. -/
theorem accepts_listed_service :
    ItemsOnly "service:dbus,pkg:vim" ∧
      (Accepted ⟨101, 950, 950⟩ (.servicesStop "dbus") "service:dbus,pkg:vim" ↔
        Lists "service:dbus,pkg:vim" .service "dbus".toList) :=
  ⟨by decide +kernel,
    (accepts_iff_listed_iff (by decide) rfl (by decide +kernel)).2 (.inl (by decide +kernel))⟩

/-- A token for `dbus-broker` is good for `dbus`, and a token for any service is good for the empty
name. -/
theorem accepts_unlisted_service :
    ItemsOnly "service:dbus-broker" ∧
      Accepted ⟨101, 950, 950⟩ (.servicesStop "dbus") "service:dbus-broker" ∧
      ¬ Lists "service:dbus-broker" .service "dbus".toList ∧
      Accepted ⟨101, 950, 950⟩ (.servicesStart "") "service:dbus-broker" ∧
      ¬ Lists "service:dbus-broker" .service "".toList :=
  ⟨by decide +kernel, ⟨.lunaAI, by decide +kernel⟩, by decide +kernel,
    ⟨.lunaAI, by decide +kernel⟩, by decide +kernel⟩

end Control
