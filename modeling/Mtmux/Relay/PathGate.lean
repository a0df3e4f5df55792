import Mtmux.Base.Text
import Mtmux.Relay.FileService

/-! The gate on paths and the operating system: where an operation that passes the gate really
reads, creates or removes. -/
namespace Mtmux.Relay
open Crypto Protocol FileTree List

/-! ### The gate compares texts -/

theorem slashed_cases (p : Location) : slashed p = [] ∨ ∃ rest, slashed p = '/' :: rest := by
  cases p with
  | nil => exact .inl rfl
  | cons n p => exact .inr ⟨_, rfl⟩

theorem name_of_text {m n : FileName} {a b : List Char}
    (h : m.1 ++ '/' :: a = n.1 ++ b) (hb : b = [] ∨ ∃ rest, b = '/' :: rest) : m = n ∧ b = '/' :: a := by
  rcases hb with rfl | ⟨rest, rfl⟩
  · rw [append_nil] at h
    exact absurd (by rw [← h]; simp) n.2.2.1
  · obtain ⟨hname, hrest⟩ := Separator.split_inj m.2.2.1 n.2.2.1 h
    exact ⟨Subtype.ext hname, by rw [hrest]⟩

/-- A path's text with a slash behind it begins exactly the texts of the paths below it. -/
theorem slashed_prefix (root r : Location) : slashed root ++ ['/'] <+: slashed r ↔ ∃ n rest, r = root ++ n :: rest := by
  induction root generalizing r with
  | nil =>
    cases r with
    | nil | cons _ _ => simp [slashed]
  | cons m root ih =>
    cases r with
    | nil => simp [slashed]
    | cons n r =>
      obtain ⟨a, ha⟩ : ∃ a, slashed root ++ ['/'] = '/' :: a := by
        cases root with
        | nil => exact ⟨[], rfl⟩
        | cons k root => exact ⟨_, rfl⟩
      constructor
      · rintro ⟨tail, htail⟩
        have heq : m.1 ++ '/' :: (a ++ tail) = n.1 ++ slashed r := by
          have hcons : '/' :: (m.1 ++ (slashed root ++ ['/'] ++ tail)) = '/' :: (n.1 ++ slashed r) := by
            simpa [slashed] using htail
          rw [ha] at hcons
          exact (List.cons.inj hcons).2
        obtain ⟨rfl, hrest⟩ := name_of_text heq (slashed_cases r)
        obtain ⟨k, rest, rfl⟩ := (ih r).1 ⟨tail, by rw [ha, hrest]; rfl⟩
        exact ⟨k, rest, rfl⟩
      · rintro ⟨k, rest, heq⟩
        have hcons : n :: r = m :: (root ++ k :: rest) := heq
        obtain ⟨rfl, rfl⟩ := List.cons.inj hcons
        obtain ⟨tail, htail⟩ := (ih (root ++ k :: rest)).2 ⟨k, rest, rfl⟩
        refine ⟨tail, ?_⟩
        rw [slashed, slashed, ← htail]
        simp

theorem slashed_inj {p q : Location} (h : slashed p = slashed q) : p = q := by
  induction p generalizing q with
  | nil =>
    cases q with
    | nil => rfl
    | cons n q => cases h
  | cons m p ih =>
    cases q with
    | nil => cases h
    | cons n q =>
      have heq : m.1 ++ slashed p = n.1 ++ slashed q := (List.cons.inj h).2
      rcases slashed_cases p with hp | ⟨a, ha⟩
      · rcases slashed_cases q with hq | ⟨b, hb⟩
        · rw [hp, hq, append_nil, append_nil] at heq
          rw [Subtype.ext heq, ih (hp.trans hq.symm)]
        · rw [hp, hb, append_nil] at heq
          exact absurd (by rw [heq]; simp) m.2.2.1
      · rw [ha] at heq
        obtain ⟨rfl, hrest⟩ := name_of_text heq (slashed_cases q)
        rw [ih (ha.trans hrest.symm)]

/-- What the gate's comparison of texts says of the paths: the root directory counts only as
itself. -/
theorem isWithin_iff (resolved root : Location) :
    isWithin resolved root = true ↔ resolved = root ∨ root ≠ [] ∧ root <+: resolved := by
  rw [isWithin, Bool.or_eq_true, beq_iff_eq, isPrefixOf_iff_prefix]
  cases root with
  | nil =>
    cases resolved with
    | nil => simp [pathText]
    | cons n r =>
      have hname := n.2.1
      have hslash := n.2.2.1
      cases hchars : n.1 with
      | nil => exact absurd hchars hname
      | cons c chars =>
        rw [hchars] at hslash
        have hc : '/' ≠ c := fun heq => hslash (by rw [heq]; exact mem_cons_self)
        simp [pathText, slashed, hchars, hc]
  | cons m root =>
    cases resolved with
    | nil =>
      cases hchars : m.1 with
      | nil => exact absurd hchars m.2.1
      | cons c chars => simp [pathText, slashed, hchars]
    | cons n r =>
      have htext : pathText (n :: r) = pathText (m :: root) ↔ n :: r = m :: root :=
        ⟨fun h => slashed_inj h, fun h => by rw [h]⟩
      have hbelow : pathText (m :: root) ++ ['/'] <+: pathText (n :: r) ↔
          ∃ k rest, n :: r = m :: root ++ k :: rest := slashed_prefix (m :: root) (n :: r)
      rw [htext, hbelow]
      constructor
      · rintro (heq | ⟨k, rest, heq⟩)
        · exact .inl heq
        · exact .inr ⟨by simp, heq ▸ prefix_append _ _⟩
      · rintro (heq | ⟨-, rest, heq⟩)
        · exact .inl heq
        · cases rest with
          | nil => exact .inl (by rw [← heq, append_nil])
          | cons k rest => exact .inr ⟨k, rest, heq.symm⟩

section Resolution
variable {host : FileHost} {t : Tree} {path : String} {p r loc : Location}

/-- What `realpathResolve` gives: a canonical name, a name in a canonical directory that leads
nowhere, or a path whose directory leads nowhere. -/
inductive Resolved (host : FileHost) (t : Tree) (r : Location) : Prop where
  | real (solid : t.isSolid r = true) : Resolved host t r
  | child (parent : Location) (base : FileName) (eq : r = parent ++ [base])
      (solid : t.isSolid parent = true)
      (nowhere : t.walk false host.links parent [.name base] = none) : Resolved host t r
  | lexical (parent : Location) (base : FileName) (eq : r = parent ++ [base])
      (nowhere : t.realpath host.links parent = none) : Resolved host t r

theorem realpathResolve_cases (host : FileHost) (t : Tree) (path : String) :
    Resolved host t (realpathResolve host t path) := by
  rw [realpathResolve]
  cases hreal : t.realpath host.links (pathResolve host.cwd path) with
  | some real => exact .real (isSolid_realpath hreal)
  | none =>
    rcases eq_nil_or_concat (pathResolve host.cwd path) with hnil | ⟨parent, base, heq⟩
    · rw [hnil, realpath_nil] at hreal
      cases hreal
    · rw [concat_eq_append] at heq
      rw [heq, List.getLast?_concat, dropLast_concat]
      simp only
      cases hparent : t.realpath host.links parent with
      | some real =>
        rw [heq, realpath_snoc, hparent, Option.bind_some, Option.map_eq_none_iff] at hreal
        exact .child real base rfl (isSolid_realpath hparent) hreal
      | none => exact .lexical parent base rfl hparent

theorem walk_solid_path {create : Bool} {links : Nat} (h : t.isSolid p = true) :
    t.walk create links [] (p.map .name) = some (p, links) := by
  have hbelow : t.isSolid ([] ++ p) = true := h
  exact walk_names hbelow

variable {kind : Lookup}

theorem lookup_real (solid : t.isSolid r = true) (h : lookupPath host t r kind = some loc) : loc = r := by
  cases kind with
  | opened =>
    rw [lookupPath, walk_solid_path solid] at h
    exact (Option.some.inj h).symm
  | created =>
    rw [lookupPath, walk_solid_path solid] at h
    exact (Option.some.inj h).symm
  | entry =>
    rcases eq_nil_or_concat r with rfl | ⟨parent, base, rfl⟩
    · exact (Option.some.inj h).symm
    · rw [concat_eq_append] at solid h ⊢
      have hdir := isDir_iff.2 (t.parent parent base (exists_of_isSolid solid))
      rw [lookupPath, List.getLast?_concat, dropLast_concat,
        walk_solid_path (isSolid_of_isDir hdir)] at h
      simp only [hdir, if_true] at h
      exact (Option.some.inj h).symm

theorem lookup_child {parent : Location} {base : FileName} (solid : t.isSolid parent = true)
    (nowhere : t.walk false host.links parent [.name base] = none)
    (h : lookupPath host t (parent ++ [base]) kind = some loc) : loc = parent ++ [base] ∧ kind ≠ .opened ∨
      kind = .created ∧ (∃ target, t.node (parent ++ [base]) = some (.link target)) ∧ t.node loc = none := by
  have hwalk : ∀ create, t.walk create host.links [] ((parent ++ [base]).map .name) =
      t.walk create host.links parent [.name base] := fun create => by
    rw [map_append, walk_append _ (by simp), walk_solid_path solid]
    rfl
  cases kind with
  | opened =>
    rw [lookupPath, hwalk, nowhere] at h
    cases h
  | created =>
    rw [lookupPath, hwalk] at h
    obtain ⟨⟨found, left⟩, hfound, rfl⟩ := Option.map_eq_some_iff.1 h
    have hmissing : t.node found = none := by
      rcases walk_ends solid hfound with hsolid | ⟨-, hnone, -, -⟩
      · rw [(walk_create solid).2 ⟨hsolid, hfound⟩] at nowhere
        cases nowhere
      · exact hnone
    rcases t.name_cases (parent ++ [base]) with hnone | ⟨target, hlink⟩ | hsolid
    · rw [walk_missing hnone] at hfound
      split at hfound
      · exact .inl ⟨(congrArg Prod.fst (Option.some.inj hfound)).symm, by simp⟩
      · cases hfound
    · exact .inr ⟨rfl, ⟨target, hlink⟩, hmissing⟩
    · rw [walk_solid hsolid, walk_nil] at nowhere
      cases nowhere
  | entry =>
    refine .inl ⟨?_, by simp⟩
    rw [lookupPath, List.getLast?_concat, dropLast_concat, walk_solid_path solid] at h
    simp only at h
    split at h
    · exact (Option.some.inj h).symm
    · cases h

theorem lookup_lexical {parent : Location} {base : FileName} (nowhere : t.realpath host.links parent = none) :
    lookupPath host t (parent ++ [base]) kind = none := by
  have hwalk : t.walk false host.links [] (parent.map .name) = none := by
    cases hw : t.walk false host.links [] (parent.map .name) with
    | none => rfl
    | some found =>
      rw [realpath_of_walk hw] at nowhere
      cases nowhere
  have hnone : ∀ create, t.walk create host.links [] ((parent ++ [base]).map .name) = none :=
    fun create => by
      rw [map_append, walk_append _ (by simp), hwalk]
      rfl
  cases kind with
  | opened | created => simp only [lookupPath, hnone, Option.map_none]
  | entry => simp only [lookupPath, List.getLast?_concat, dropLast_concat, hwalk]

theorem lookup_cases (hr : Resolved host t r) (h : lookupPath host t r kind = some loc) :
    loc = r ∧ (kind = .opened → t.isSolid r = true) ∨
      kind = .created ∧ (∃ target, t.node r = some (.link target)) ∧ t.node loc = none := by
  cases hr with
  | real solid => exact .inl ⟨lookup_real solid h, fun _ => solid⟩
  | child parent base eq solid nowhere =>
    subst eq
    rcases lookup_child solid nowhere h with ⟨heq, hkind⟩ | hcreated
    · exact .inl ⟨heq, fun hopened => absurd hopened hkind⟩
    · exact .inr hcreated
  | lexical parent base eq nowhere =>
    subst eq
    rw [lookup_lexical nowhere] at h
    cases h

end Resolution

/-! ### What an operation reaches -/

section Touched
variable (host : FileHost)

def touchedBy (t : Tree) (path : String) (kind : Lookup) : List (String × Location) :=
  (lookupPath host t (realpathResolve host t path) kind).toList.map fun loc => (path, loc)

/-- The places a message's operation reads, creates, truncates or removes, each with the path
that names it. -/
def touched (s : FileState) : ClientMessage → List (String × Location)
  | .fileList path => touchedBy host s.tree path .opened
  | .fileRead path => touchedBy host s.tree path .opened
  | .fileStat path => touchedBy host s.tree path .opened
  | .fileWatch path => touchedBy host s.tree path .opened
  | .fileWrite path _ =>
    if (lookupPath host s.tree (realpathResolve host s.tree path) .opened).isSome then
      touchedBy host s.tree path .created
    else []
  | .fileCreate path _ => touchedBy host s.tree path .entry
  | .fileMkdir path => touchedBy host s.tree path .entry
  | .fileDelete path => touchedBy host s.tree path .entry
  | .fileRename oldPath newPath =>
    touchedBy host s.tree oldPath .entry ++ touchedBy host s.tree newPath .entry
  | .fileUpload path content _ =>
    if maxUploadBytes < ((s.uploads.get (realpathResolve host s.tree path)).getD 0) +
        (host.base64 content).length then touchedBy host s.tree path .entry
    else touchedBy host s.tree path .created
  | _ => []

variable (t : Tree)

def InsideAllowed (loc : Location) : Prop :=
  ∃ allowed ∈ host.allowedPaths, realpathResolve host t allowed <+: loc

def OutsideDenied (denied : List Location) (loc : Location) : Prop :=
  ∀ root ∈ denied, ¬ root <+: loc

/-- Where an operation may go. -/
def Permitted (loc : Location) : Prop :=
  InsideAllowed host t loc ∧ OutsideDenied (resolvedDenied host t) loc

/-- An upload whose path is a link that leads to no file, out of the allowed roots or into a
denied one: the system creates the file there. -/
def LeadsOut (s : FileState) (msg : ClientMessage) (path : String) : Prop :=
  (∃ content final, msg = .fileUpload path content final ∧
    ((s.uploads.get (realpathResolve host s.tree path)).getD 0) + (host.base64 content).length ≤
      maxUploadBytes) ∧
  (∃ target, s.tree.node (realpathResolve host s.tree path) = some (.link target)) ∧
  ∃ missing, lookupPath host s.tree (realpathResolve host s.tree path) .created = some missing ∧
    ¬ Permitted host s.tree missing

end Touched

section Gate
variable {host : FileHost} {t : Tree} {s : FileState} {msg : ClientMessage} {path : String}
  {loc : Location}

theorem mem_touchedBy {p : String} {kind : Lookup} (h : (path, loc) ∈ touchedBy host t p kind) :
    p = path ∧ lookupPath host t (realpathResolve host t path) kind = some loc := by
  obtain ⟨found, hfound, heq⟩ := mem_map.1 h
  cases heq
  exact ⟨rfl, Option.mem_toList.1 hfound⟩

/-- An operation reaches the place the gate looked at, or the end of an uploaded link. -/
theorem touched_cases (h : (path, loc) ∈ touched host s msg) : loc = realpathResolve host s.tree path ∨
      (∃ content final, msg = .fileUpload path content final ∧
        ((s.uploads.get (realpathResolve host s.tree path)).getD 0) + (host.base64 content).length ≤ maxUploadBytes) ∧
      (∃ target, s.tree.node (realpathResolve host s.tree path) = some (.link target)) ∧
      lookupPath host s.tree (realpathResolve host s.tree path) .created = some loc ∧ s.tree.node loc = none := by
  have hplace : ∀ {p kind}, (path, loc) ∈ touchedBy host s.tree p kind → kind ≠ .created →
      loc = realpathResolve host s.tree path := by
    intro p kind hin hkind
    obtain ⟨-, hlook⟩ := mem_touchedBy hin
    rcases lookup_cases (realpathResolve_cases host s.tree path) hlook with ⟨heq, -⟩ | ⟨hc, -⟩
    · exact heq
    · exact absurd hc hkind
  cases msg with
  | fileList _ | fileRead _ | fileStat _ | fileWatch _ | fileCreate _ _ | fileMkdir _ | fileDelete _ =>
    exact .inl (hplace h (by simp))
  | fileRename oldPath newPath =>
    rcases mem_append.1 h with hold | hnew
    · exact .inl (hplace hold (by simp))
    · exact .inl (hplace hnew (by simp))
  | fileWrite p content =>
    rw [touched] at h
    split at h
    · rename_i hsome
      obtain ⟨rfl, hlook⟩ := mem_touchedBy h
      obtain ⟨there, hthere⟩ := Option.isSome_iff_exists.1 hsome
      have hr := realpathResolve_cases host s.tree p
      rcases lookup_cases hr hlook with ⟨heq, -⟩ | ⟨-, ⟨target, hlink⟩, -⟩
      · exact .inl heq
      · rcases lookup_cases hr hthere with ⟨-, hsolid⟩ | ⟨hc, -⟩
        · have hno := hsolid rfl
          rw [FileTree.isSolid, hlink] at hno
          cases hno
        · cases hc
    · cases h
  | fileUpload p content final =>
    rw [touched] at h
    split at h
    · exact .inl (hplace h (by simp))
    · rename_i hsize
      obtain ⟨rfl, hlook⟩ := mem_touchedBy h
      rcases lookup_cases (realpathResolve_cases host s.tree p) hlook with ⟨heq, -⟩ | ⟨-, hlink, hmissing⟩
      · exact .inl heq
      · exact .inr ⟨⟨content, final, rfl, Nat.le_of_not_lt hsize⟩, hlink, hlook, hmissing⟩
  | _ => cases h

variable {denied : List Location}

theorem isPathAllowed_iff : isPathAllowed host t denied path = true ↔ (∃ allowed ∈ host.allowedPaths,
        isWithin (realpathResolve host t path) (realpathResolve host t allowed) = true) ∧
      ∀ root ∈ denied, isWithin (realpathResolve host t path) root = false := by
  rw [isPathAllowed]
  split
  · rename_i hdenied
    simp only [any_eq_true] at hdenied
    obtain ⟨root, hroot, hin⟩ := hdenied
    constructor
    · intro h
      cases h
    · rintro ⟨-, hall⟩
      rw [hall root hroot] at hin
      cases hin
  · rename_i hfree
    simp only [any_eq_true, not_exists, not_and, Bool.not_eq_true] at hfree
    rw [any_eq_true]
    exact ⟨fun h => ⟨h, hfree⟩, fun h => h.1⟩

theorem insideAllowed_of_allowed (h : isPathAllowed host t denied path = true) :
    InsideAllowed host t (realpathResolve host t path) := by
  obtain ⟨⟨allowed, hmem, hin⟩, -⟩ := isPathAllowed_iff.1 h
  refine ⟨allowed, hmem, ?_⟩
  rcases (isWithin_iff _ _).1 hin with heq | ⟨-, hprefix⟩
  · rw [heq]
  · exact hprefix

theorem outsideDenied_of_allowed (hroot : [] ∉ denied) (h : isPathAllowed host t denied path = true) :
    OutsideDenied denied (realpathResolve host t path) := by
  obtain ⟨-, hfree⟩ := isPathAllowed_iff.1 h
  intro root hmem hprefix
  have hout := hfree root hmem
  have hne : root ≠ [] := fun heq => hroot (heq ▸ hmem)
  rw [(isWithin_iff _ _).2 (.inr ⟨hne, hprefix⟩)] at hout
  cases hout

/-- Where an operation that passes the gate goes is permitted if and only if no denied root is
the root directory and the operation is no upload through a link that leads out. -/
theorem path_gate_iff (host : FileHost) (s : FileState) (msg : ClientMessage) (path : String)
    (loc : Location) (hpass : isPathAllowed host s.tree (resolvedDenied host s.tree) path = true)
    (htouched : (path, loc) ∈ touched host s msg) : Permitted host s.tree loc ↔
      [] ∉ resolvedDenied host s.tree ∧ ¬ LeadsOut host s msg path := by
  constructor
  · intro hpermitted
    refine ⟨fun hmem => hpermitted.2 [] hmem nil_prefix, ?_⟩
    rintro ⟨⟨content, final, rfl, hsize⟩, -, missing, hmissing, hout⟩
    rw [touched, if_neg (Nat.not_lt.2 hsize)] at htouched
    obtain ⟨-, hlook⟩ := mem_touchedBy htouched
    rw [hlook] at hmissing
    exact hout (Option.some.inj hmissing ▸ hpermitted)
  · rintro ⟨hroot, hstays⟩
    rcases touched_cases htouched with heq | ⟨hupload, hlink, hlook, -⟩
    · rw [heq]
      exact ⟨insideAllowed_of_allowed hpass, outsideDenied_of_allowed hroot hpass⟩
    · by_contra hout
      exact hstays ⟨hupload, hlink, loc, hlook, hout⟩

end Gate

/-! ### A home directory -/

def homeName : FileName := ⟨"home".toList, by decide⟩
def userName : FileName := ⟨"u".toList, by decide⟩
def configName : FileName := ⟨".mtmux".toList, by decide⟩
def tokenName : FileName := ⟨"config.json".toList, by decide⟩
def noteName : FileName := ⟨"note".toList, by decide⟩
def linkName : FileName := ⟨"link".toList, by decide⟩
def settingsName : FileName := ⟨".config".toList, by decide⟩
def ghName : FileName := ⟨"gh".toList, by decide⟩

def homeHost : FileHost where
  cwd := []
  home := "/home/u"
  configDir := none
  allowedPaths := ["/home/u"]
  links := 40
  base64 := fun text => (base64UrlToBytes text).getD []
  utf8 := fun bytes => String.ofList (bytes.map fun b => Char.ofNat b.toNat)

def homeTree : Tree :=
  .ofEntries
    [([homeName], .dir), ([homeName, userName], .dir), ([homeName, userName, configName], .dir),
      ([homeName, userName, noteName], .file [104, 105]),
      ([homeName, userName, settingsName], .dir),
      ([homeName, userName, settingsName, ghName], .dir),
      ([homeName, userName, settingsName, ghName, tokenName], .file [107]),
      ([homeName, userName, linkName],
        .link ⟨true, [.name homeName, .name userName, .name configName, .name tokenName]⟩)]
    (by decide)

def homeState : FileState := ⟨homeTree, .empty⟩

theorem note_is_permitted : Permitted homeHost homeTree [homeName, userName, noteName] ↔
      [] ∉ resolvedDenied homeHost homeTree ∧ ¬ LeadsOut homeHost homeState (.fileRead "/home/u/note") "/home/u/note" :=
  path_gate_iff homeHost homeState (.fileRead "/home/u/note") "/home/u/note"
    [homeName, userName, noteName] (by decide +kernel) (by decide +kernel)

/-- An upload to the link creates the relay's own configuration. -/
theorem upload_creates_config :
    isPathAllowed homeHost homeTree (resolvedDenied homeHost homeTree) "/home/u/link" = true ∧
      ("/home/u/link", [homeName, userName, configName, tokenName]) ∈
        touched homeHost homeState (.fileUpload "/home/u/link" "x" true) ∧
      ¬ Permitted homeHost homeTree [homeName, userName, configName, tokenName] := by
  refine ⟨by decide +kernel, by decide +kernel, fun hpermitted => ?_⟩
  have hdenied : [homeName, userName, configName] ∈ resolvedDenied homeHost homeTree := by
    decide +kernel
  exact hpermitted.2 _ hdenied (prefix_append [homeName, userName, configName] [tokenName])

end Mtmux.Relay
