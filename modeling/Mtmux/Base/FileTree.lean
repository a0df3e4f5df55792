import Mathlib.Data.List.Infix
import Mathlib.Data.List.Dedup

/-! A tree of directories, files and symbolic links, and how the operating system resolves a
path in it. A location is the list of names from the root; no part of it is a link, save
perhaps the last. -/

/-- A part of a link's target: a name, or the directory above. -/
inductive PathStep (α : Type*) where
  | up
  | name (n : α)

/-- What a symbolic link holds. -/
structure LinkTarget (α : Type*) where
  absolute : Bool
  steps : List (PathStep α)

def LinkTarget.base {α : Type*} (target : LinkTarget α) (p : List α) : List α :=
  if target.absolute then [] else p

inductive FileNode (α β : Type*) where
  | dir
  | file (content : β)
  | link (target : LinkTarget α)

/-- The entries by location; the root is a directory, and every other entry is in one.
`names` has the location of every entry, and maybe others. -/
structure FileTree (α β : Type*) where
  node : List α → Option (FileNode α β)
  names : List (List α)
  root : node [] = some .dir
  parent : ∀ p n, node (p ++ [n]) ≠ none → node p = some .dir
  complete : ∀ p, node p ≠ none → p ∈ names

namespace FileTree
open List Option
variable {α β : Type*} (t : FileTree α β)

def isDir (p : List α) : Bool :=
  match t.node p with
  | some .dir => true
  | some (.file _) => false
  | some (.link _) => false
  | none => false

def isSolid (p : List α) : Bool :=
  match t.node p with
  | some .dir => true
  | some (.file _) => true
  | some (.link _) => false
  | none => false

/-- The steps of a path from the directory `cur`, with `follow` for a link; the second part of
the result is how many links may still be followed. A last name that is missing is where
`create` would put it. -/
def walkWith (create : Bool)
    (follow : List α → LinkTarget α → List (PathStep α) → Option (List α × Nat)) (left : Nat) :
    List α → List (PathStep α) → Option (List α × Nat)
  | cur, [] => some (cur, left)
  | cur, .up :: rest => if t.isDir cur then walkWith create follow left cur.dropLast rest else none
  | cur, .name n :: rest =>
    match t.node (cur ++ [n]) with
    | none => if create && rest.isEmpty && t.isDir cur then some (cur ++ [n], left) else none
    | some (.link target) => follow cur target rest
    | some .dir => walkWith create follow left (cur ++ [n]) rest
    | some (.file _) => walkWith create follow left (cur ++ [n]) rest

/-- The walk of the operating system, which follows at most `links` links. -/
def walk (create : Bool) : Nat → List α → List (PathStep α) → Option (List α × Nat)
  | 0 => t.walkWith create (fun _ _ _ => none) 0
  | links + 1 =>
    t.walkWith create
      (fun cur target rest => walk create links (target.base cur) (target.steps ++ rest))
      (links + 1)

/-- The canonical name of what a path leads to, found name by name. -/
def realpath (links : Nat) (p : List α) : Option (List α) :=
  p.foldlM (fun cur n => (t.walk false links cur [.name n]).map Prod.fst) []

section Walk
variable {t} {create : Bool} {links left : Nat} {cur loc : List α}

variable {p : List α}

theorem isDir_iff : t.isDir p = true ↔ t.node p = some .dir := by
  unfold isDir
  split <;> simp_all

theorem isSolid_of_isDir (h : t.isDir p = true) : t.isSolid p = true := by
  rw [isSolid, isDir_iff.1 h]

theorem exists_of_isSolid (h : t.isSolid p = true) : t.node p ≠ none := by
  intro hnone
  rw [isSolid, hnone] at h
  cases h

/-- What is above an entry is a directory. -/
theorem isDir_of_below {q : List α} (hq : q ≠ []) (h : t.node (p ++ q) ≠ none) : t.isDir p = true := by
  induction q using List.reverseRecOn with
  | nil => exact absurd rfl hq
  | append_singleton q n ih =>
    rw [← append_assoc] at h
    have hdir := t.parent (p ++ q) n h
    cases q with
    | nil => rw [append_nil] at hdir; exact isDir_iff.2 hdir
    | cons m q => exact ih (by simp) (by rw [hdir]; simp)

theorem isDir_dropLast (h : t.node p ≠ none) : t.isDir p.dropLast = true := by
  rcases eq_nil_or_concat p with rfl | ⟨q, n, rfl⟩
  · exact isDir_iff.2 t.root
  · rw [concat_eq_append, dropLast_concat]
    rw [concat_eq_append] at h
    exact isDir_iff.2 (t.parent q n h)

theorem walk_nil : t.walk create links cur [] = some (cur, links) := by
  cases links <;> rfl

theorem walk_up (rest : List (PathStep α)) :
    t.walk create links cur (.up :: rest) =
      if t.isDir cur then t.walk create links cur.dropLast rest else none := by
  cases links <;> rfl

variable {n : α}

theorem walk_solid (h : t.isSolid (cur ++ [n]) = true) (rest : List (PathStep α)) :
    t.walk create links cur (.name n :: rest) = t.walk create links (cur ++ [n]) rest := by
  unfold isSolid at h
  cases hnode : t.node (cur ++ [n]) with
  | none => rw [hnode] at h; cases h
  | some node =>
    rw [hnode] at h
    cases node with
    | dir | file _ => cases links <;> simp only [walk, walkWith, hnode]
    | link target => cases h

theorem walk_missing (h : t.node (cur ++ [n]) = none) (rest : List (PathStep α)) :
    t.walk create links cur (.name n :: rest) =
      if create && rest.isEmpty && t.isDir cur then some (cur ++ [n], links) else none := by
  cases links <;> simp only [walk, walkWith, h]

variable {target : LinkTarget α}

theorem walk_link (h : t.node (cur ++ [n]) = some (.link target)) (rest : List (PathStep α)) :
    t.walk create (links + 1) cur (.name n :: rest) = t.walk create links (target.base cur) (target.steps ++ rest) := by
  simp only [walk, walkWith, h]

theorem walk_link_zero (h : t.node (cur ++ [n]) = some (.link target)) (rest : List (PathStep α)) :
    t.walk create 0 cur (.name n :: rest) = none := by
  simp only [walk, walkWith, h]

/-- What a name leads to, one case for each kind of entry. -/
theorem name_cases (t : FileTree α β) (p : List α) :
    t.node p = none ∨ (∃ target, t.node p = some (.link target)) ∨ t.isSolid p = true := by
  cases h : t.node p with
  | none => exact .inl rfl
  | some node =>
    cases node with
    | dir | file _ => exact .inr (.inr (by rw [isSolid, h]))
    | link target => exact .inr (.inl ⟨target, rfl⟩)

theorem walk_induction {P : Nat → List α → List (PathStep α) → Prop} (nil : ∀ links cur, P links cur [])
    (up : ∀ links cur rest, P links cur.dropLast rest → P links cur (.up :: rest))
    (name : ∀ links cur n rest, (∀ next, P links next rest) →
      (∀ fewer < links, ∀ next steps, P fewer next steps) → P links cur (.name n :: rest))
    (links : Nat) (cur : List α) (steps : List (PathStep α)) : P links cur steps := by
  induction links using Nat.strong_induction_on generalizing cur steps with
  | _ links ih =>
    induction steps generalizing cur with
    | nil => exact nil links cur
    | cons step rest ihrest =>
      cases step with
      | up => exact up links cur rest (ihrest _)
      | name n => exact name links cur n rest ihrest (fun fewer hlt next steps => ih fewer hlt next steps)

/-- A walk goes through the first steps and on from there. -/
theorem walk_append (xs : List (PathStep α)) {ys : List (PathStep α)} (hys : ys ≠ []) :
    t.walk create links cur (xs ++ ys) = (t.walk false links cur xs).bind fun r => t.walk create r.2 r.1 ys := by
  induction links, cur, xs using walk_induction with
  | nil links cur => rw [walk_nil]; rfl
  | up links cur rest ih =>
    rw [cons_append, walk_up, walk_up]
    split
    · exact ih
    · rfl
  | name links cur n rest ihrest ih =>
    rw [cons_append]
    rcases t.name_cases (cur ++ [n]) with hnone | ⟨target, hlink⟩ | hsolid
    · rw [walk_missing hnone, walk_missing hnone]
      simp [hys]
    · cases links with
      | zero => rw [walk_link_zero hlink, walk_link_zero hlink]; rfl
      | succ links =>
        rw [walk_link hlink, walk_link hlink, ← append_assoc]
        exact ih links (Nat.lt_succ_self _) _ _
    · rw [walk_solid hsolid, walk_solid hsolid]
      exact ihrest _

theorem walk_name_some {rest : List (PathStep α)} (h : t.walk create links cur (.name n :: rest) = some (loc, left)) :
    (t.node (cur ++ [n]) = none ∧ create = true ∧ rest = [] ∧ t.isDir cur = true ∧ loc = cur ++ [n] ∧ left = links) ∨
      (∃ fewer target, links = fewer + 1 ∧ t.node (cur ++ [n]) = some (.link target) ∧
        t.walk create fewer (target.base cur) (target.steps ++ rest) = some (loc, left)) ∨
      t.isSolid (cur ++ [n]) = true ∧ t.walk create links (cur ++ [n]) rest = some (loc, left) := by
  rcases t.name_cases (cur ++ [n]) with hnone | ⟨target, hlink⟩ | hsolid
  · rw [walk_missing hnone] at h
    split at h
    · rename_i hlast
      simp only [Bool.and_eq_true, List.isEmpty_iff] at hlast
      cases h
      exact .inl ⟨hnone, hlast.1.1, hlast.1.2, hlast.2, rfl, rfl⟩
    · cases h
  · cases links with
    | zero => rw [walk_link_zero hlink] at h; cases h
    | succ links =>
      rw [walk_link hlink] at h
      exact .inr (.inl ⟨links, target, rfl, hlink, h⟩)
  · rw [walk_solid hsolid] at h
    exact .inr (.inr ⟨hsolid, h⟩)

variable {steps : List (PathStep α)}

/-- More links than are needed do no harm. -/
theorem walk_more (extra : Nat) (h : t.walk create links cur steps = some (loc, left)) :
    t.walk create (links + extra) cur steps = some (loc, left + extra) := by
  induction links, cur, steps using walk_induction with
  | nil links cur =>
    rw [walk_nil] at h ⊢
    cases h
    rfl
  | up links cur rest ih =>
    rw [walk_up] at h ⊢
    split at h
    · rename_i hdir
      rw [if_pos hdir]
      exact ih h
    · cases h
  | name links cur n rest ihrest ih =>
    obtain ⟨hnone, rfl, rfl, hdir, rfl, rfl⟩ | ⟨fewer, target, rfl, hlink, hwalk⟩ | ⟨hsolid, hwalk⟩ :=
      walk_name_some h
    · rw [walk_missing hnone]
      simp [hdir]
    · rw [show fewer + 1 + extra = fewer + extra + 1 by omega, walk_link hlink]
      exact ih fewer (Nat.lt_succ_self _) _ _ hwalk
    · rw [walk_solid hsolid]
      exact ihrest _ hwalk

theorem walk_left_le (h : t.walk create links cur steps = some (loc, left)) : left ≤ links := by
  induction links, cur, steps using walk_induction with
  | nil links cur =>
    rw [walk_nil] at h
    cases h
    exact Nat.le_refl _
  | up links cur rest ih =>
    rw [walk_up] at h
    split at h
    · exact ih h
    · cases h
  | name links cur n rest ihrest ih =>
    obtain ⟨-, -, -, -, -, rfl⟩ | ⟨fewer, target, rfl, -, hwalk⟩ | ⟨-, hwalk⟩ := walk_name_some h
    · exact Nat.le_refl _
    · exact Nat.le_succ_of_le (ih fewer (Nat.lt_succ_self _) _ _ hwalk)
    · exact ihrest _ hwalk

theorem isSolid_base (hcur : t.isSolid cur = true) : t.isSolid (target.base cur) = true := by
  rw [LinkTarget.base]
  split
  · exact isSolid_of_isDir (isDir_iff.2 t.root)
  · exact hcur

theorem walk_ends (hcur : t.isSolid cur = true) (h : t.walk create links cur steps = some (loc, left)) :
    t.isSolid loc = true ∨ create = true ∧ t.node loc = none ∧ loc ≠ [] ∧ t.isDir loc.dropLast = true := by
  induction links, cur, steps using walk_induction with
  | nil links cur =>
    rw [walk_nil] at h
    cases h
    exact .inl hcur
  | up links cur rest ih =>
    rw [walk_up] at h
    split at h
    · exact ih (isSolid_of_isDir (isDir_dropLast (exists_of_isSolid hcur))) h
    · cases h
  | name links cur n rest ihrest ih =>
    obtain ⟨hnone, hcreate, -, hdir, rfl, -⟩ | ⟨fewer, target, rfl, -, hwalk⟩ | ⟨hsolid, hwalk⟩ :=
      walk_name_some h
    · exact .inr ⟨hcreate, hnone, by simp, by rw [dropLast_concat]; exact hdir⟩
    · exact ih fewer (Nat.lt_succ_self _) _ _ (isSolid_base hcur) hwalk
    · exact ihrest _ hsolid hwalk

theorem walk_names (h : t.isSolid (cur ++ p) = true) :
    t.walk create links cur (p.map .name) = some (cur ++ p, links) := by
  induction p generalizing cur with
  | nil => rw [map_nil, walk_nil, append_nil]
  | cons n p ih =>
    have hassoc : cur ++ n :: p = cur ++ [n] ++ p := by simp
    have hfirst : t.isSolid (cur ++ [n]) = true := by
      rw [hassoc] at h
      cases p with
      | nil => rwa [append_nil] at h
      | cons m p => exact isSolid_of_isDir (isDir_of_below (by simp) (exists_of_isSolid h))
    rw [map_cons, walk_solid hfirst, hassoc]
    exact ih (hassoc ▸ h)

theorem walk_create (hcur : t.isSolid cur = true) : t.walk false links cur steps = some (loc, left) ↔
      t.isSolid loc = true ∧ t.walk true links cur steps = some (loc, left) := by
  induction links, cur, steps using walk_induction with
  | nil links cur =>
    rw [walk_nil, walk_nil]
    refine ⟨fun h => ⟨?_, h⟩, fun h => h.2⟩
    cases h
    exact hcur
  | up links cur rest ih =>
    rw [walk_up, walk_up]
    split
    · exact ih (isSolid_of_isDir (isDir_dropLast (exists_of_isSolid hcur)))
    · simp
  | name links cur n rest ihrest ih =>
    rcases t.name_cases (cur ++ [n]) with hnone | ⟨target, hlink⟩ | hsolid
    · rw [walk_missing hnone, walk_missing hnone]
      constructor
      · intro h
        simp at h
      · rintro ⟨hsolid, h⟩
        split at h
        · cases h
          exact absurd hnone (exists_of_isSolid hsolid)
        · cases h
    · cases links with
      | zero =>
        rw [walk_link_zero hlink, walk_link_zero hlink]
        simp
      | succ links =>
        rw [walk_link hlink, walk_link hlink]
        exact ih links (Nat.lt_succ_self _) _ _ (isSolid_base hcur)
    · rw [walk_solid hsolid, walk_solid hsolid]
      exact ihrest _ hsolid

end Walk

section Realpath
variable {t} {links left : Nat} {p c loc : List α}

theorem realpath_nil : t.realpath links [] = some [] := rfl

theorem realpath_snoc (n : α) : t.realpath links (p ++ [n]) =
      (t.realpath links p).bind fun cur => (t.walk false links cur [.name n]).map Prod.fst := by
  simp [realpath]

theorem isSolid_root : t.isSolid [] = true := isSolid_of_isDir (isDir_iff.2 t.root)

/-- The canonical name is that of an entry, and no link. -/
theorem isSolid_realpath (h : t.realpath links p = some c) : t.isSolid c = true := by
  induction p using List.reverseRecOn generalizing c with
  | nil =>
    cases h
    exact isSolid_root
  | append_singleton p n ih =>
    rw [realpath_snoc] at h
    obtain ⟨cur, hcur, hstep⟩ := bind_eq_some_iff.1 h
    obtain ⟨⟨loc, left⟩, hwalk, rfl⟩ := map_eq_some_iff.1 hstep
    exact (walk_ends (ih hcur) hwalk).resolve_right (by simp)

/-- What the system finds has that canonical name. -/
theorem realpath_of_walk (h : t.walk false links [] (p.map .name) = some (loc, left)) :
    t.realpath links p = some loc := by
  induction p using List.reverseRecOn generalizing loc left with
  | nil =>
    rw [map_nil, walk_nil] at h
    cases h
    rfl
  | append_singleton p n ih =>
    rw [map_append, walk_append _ (by simp)] at h
    obtain ⟨⟨cur, rest⟩, hfirst, hlast⟩ := bind_eq_some_iff.1 h
    have hmore := walk_more (links - rest) hlast
    rw [show rest + (links - rest) = links by have := walk_left_le hfirst; omega] at hmore
    rw [realpath_snoc, ih hfirst, bind_some]
    exact map_eq_some_iff.2 ⟨_, hmore, rfl⟩

end Realpath

theorem prefix_dropLast {p q : List α} (hq : q ≠ []) (h : p <+: q) : p = q ∨ p <+: q.dropLast := by
  obtain ⟨r, rfl⟩ := h
  rcases eq_nil_or_concat r with rfl | ⟨r, n, rfl⟩
  · exact .inl (append_nil p).symm
  · refine .inr ?_
    rw [concat_eq_append, ← append_assoc, dropLast_concat]
    exact prefix_append _ _

section Updates
variable [DecidableEq α] (t : FileTree α β)

/-- A file in a directory, new or with new content. -/
def putFile (p : List α) (content : β) (hp : p ≠ []) (hdir : t.isDir p.dropLast = true)
    (hfile : t.isDir p = false) : FileTree α β where
  node q := if q = p then some (.file content) else t.node q
  names := p :: t.names
  complete := by
    intro q h
    by_cases hq : q = p
    · exact mem_cons.2 (.inl hq)
    · rw [if_neg hq] at h
      exact mem_cons_of_mem _ (t.complete q h)
  root := by
    rw [if_neg (fun h => hp h.symm)]
    exact t.root
  parent := by
    intro q n h
    by_cases heq : q ++ [n] = p
    · have hq : q = p.dropLast := by rw [← heq, dropLast_concat]
      rw [if_neg (fun hqp => by simp [hqp] at heq), hq]
      exact isDir_iff.1 hdir
    · rw [if_neg heq] at h
      have hdirq := t.parent q n h
      rw [if_neg ?_]
      · exact hdirq
      · rintro rfl
        rw [isDir_iff.2 hdirq] at hfile
        cases hfile

/-- A new directory. -/
def addDir (p : List α) (hdir : t.isDir p.dropLast = true) : FileTree α β where
  node q := if q = p then some .dir else t.node q
  names := p :: t.names
  complete := by
    intro q h
    by_cases hq : q = p
    · exact mem_cons.2 (.inl hq)
    · rw [if_neg hq] at h
      exact mem_cons_of_mem _ (t.complete q h)
  root := by
    split
    · rfl
    · exact t.root
  parent := by
    intro q n h
    by_cases hqp : q = p
    · rw [if_pos hqp]
    · rw [if_neg hqp]
      by_cases heq : q ++ [n] = p
      · have hq : q = p.dropLast := by rw [← heq, dropLast_concat]
        rw [hq]
        exact isDir_iff.1 hdir
      · rw [if_neg heq] at h
        exact t.parent q n h

/-- An entry goes, with all that is below it. -/
def remove (p : List α) (hp : p ≠ []) : FileTree α β where
  node q := if p <+: q then none else t.node q
  names := t.names
  complete := by
    intro q h
    have hout : ¬ p <+: q := fun hin => h (if_pos hin)
    rw [if_neg hout] at h
    exact t.complete q h
  root := by
    rw [if_neg (fun h => hp (prefix_nil.1 h))]
    exact t.root
  parent := by
    intro q n h
    have hout : ¬ p <+: q ++ [n] := fun hin => h (if_pos hin)
    rw [if_neg hout] at h
    rw [if_neg (fun hin => hout (hin.trans (prefix_append _ _)))]
    exact t.parent q n h

/-- An entry goes to another place, with all that is below it. -/
def move (old new : List α) (hnew : new ≠ []) (hdir : t.isDir new.dropLast = true)
    (hout : ¬ old <+: new) : FileTree α β where
  node q :=
    if new <+: q then t.node (old ++ q.drop new.length)
    else if old <+: q then none else t.node q
  names := t.names ++ t.names.map fun q => new ++ q.drop old.length
  complete := by
    intro q h
    by_cases hin : new <+: q
    · rw [if_pos hin] at h
      refine mem_append_right _ (mem_map.2 ⟨_, t.complete _ h, ?_⟩)
      rw [drop_left]
      exact prefix_iff_eq_append.1 hin
    · rw [if_neg hin] at h
      have hold : ¬ old <+: q := fun hqin => h (if_pos hqin)
      rw [if_neg hold] at h
      exact mem_append_left _ (t.complete q h)
  root := by
    have hold : ¬ old <+: [] := fun h => hout (by rw [prefix_nil.1 h]; exact nil_prefix)
    rw [if_neg (fun h => hnew (prefix_nil.1 h)), if_neg hold]
    exact t.root
  parent := by
    intro q n h
    by_cases hin : new <+: q ++ [n]
    · rw [if_pos hin] at h
      rcases prefix_dropLast (by simp) hin with heq | hbelow
      · have hq : q = new.dropLast := by rw [heq, dropLast_concat]
        have hshort : ¬ new <+: q := fun hqin => by
          have hlen := hqin.length_le
          rw [heq, length_append, length_singleton] at hlen
          omega
        have hold : ¬ old <+: q := fun hqin => hout (hqin.trans (heq ▸ prefix_append _ _))
        rw [if_neg hshort, if_neg hold, hq]
        exact isDir_iff.1 hdir
      · rw [dropLast_concat] at hbelow
        rw [if_pos hbelow]
        rw [drop_append_of_le_length hbelow.length_le, ← append_assoc] at h
        exact t.parent _ n h
    · rw [if_neg hin] at h
      have hold : ¬ old <+: q ++ [n] := fun hqin => h (if_pos hqin)
      rw [if_neg hold] at h
      rw [if_neg (fun hqin => hin (hqin.trans (prefix_append _ _))),
        if_neg (fun hqin => hold (hqin.trans (prefix_append _ _)))]
      exact t.parent q n h

/-- What is in a directory. -/
def entriesOf (p : List α) : List (List α) :=
  (t.names.filter fun q => q ≠ [] ∧ q.dropLast = p ∧ (t.node q).isSome = true).dedup

/-- A directory with nothing in it. -/
def isHollow (p : List α) : Bool := t.isDir p && (t.entriesOf p).isEmpty

section Nodes
variable {t} {p q old new : List α}

theorem mem_entriesOf : q ∈ t.entriesOf p ↔ q ≠ [] ∧ q.dropLast = p ∧ t.node q ≠ none := by
  rw [entriesOf, mem_dedup, mem_filter, decide_eq_true_iff, isSome_iff_ne_none]
  exact ⟨fun h => h.2, fun h => ⟨t.complete q h.2.2, h⟩⟩

theorem not_isHollow_of_below {n : α} (h : t.node (p ++ n :: q) ≠ none) : t.isHollow p = false := by
  rw [isHollow, Bool.and_eq_false_iff]
  refine .inr ?_
  have hentry : p ++ [n] ∈ t.entriesOf p := by
    refine mem_entriesOf.2 ⟨by simp, dropLast_concat, ?_⟩
    cases q with
    | nil => exact h
    | cons m q =>
      have hassoc : p ++ n :: m :: q = p ++ [n] ++ m :: q := by simp
      rw [hassoc] at h
      exact exists_of_isSolid (isSolid_of_isDir (isDir_of_below (by simp) h))
  cases hlist : t.entriesOf p with
  | nil => rw [hlist] at hentry; cases hentry
  | cons e rest => rfl

variable {hdir : t.isDir p.dropLast = true}

theorem node_putFile {content : β} {hp : p ≠ []}
    {hfile : t.isDir p = false} :
    (t.putFile p content hp hdir hfile).node q = if q = p then some (.file content) else t.node q :=
  rfl

theorem node_addDir :
    (t.addDir p hdir).node q = if q = p then some .dir else t.node q := rfl

theorem node_remove {hp : p ≠ []} :
    (t.remove p hp).node q = if p <+: q then none else t.node q := rfl

theorem node_move {hnew : new ≠ []} {hdir : t.isDir new.dropLast = true} {hout : ¬ old <+: new} :
    (t.move old new hnew hdir hout).node q =
      if new <+: q then t.node (old ++ q.drop new.length)
      else if old <+: q then none else t.node q := rfl

end Nodes

/-- A list of entries below the root. -/
def listed (entries : List (List α × FileNode α β)) (p : List α) : Option (FileNode α β) :=
  if p = [] then some .dir else entries.lookup p

def ListedIn (entries : List (List α × FileNode α β)) : Bool :=
  entries.all fun e =>
    match listed entries e.1.dropLast with
    | some .dir => true
    | some (.file _) => false
    | some (.link _) => false
    | none => false

def ofEntries (entries : List (List α × FileNode α β)) (h : ListedIn entries = true) :
    FileTree α β where
  node := listed entries
  names := [] :: entries.map Prod.fst
  complete := by
    intro p hp
    rw [listed] at hp
    split at hp
    · rename_i hroot
      exact mem_cons.2 (.inl hroot)
    · obtain ⟨node, hnode⟩ := ne_none_iff_exists'.1 hp
      obtain ⟨before, after, heq, -⟩ := lookup_eq_some_iff.1 hnode
      exact mem_cons_of_mem _ (mem_map.2 ⟨(p, node), by rw [heq]; simp, rfl⟩)
  root := if_pos rfl
  parent := by
    intro p n hn
    rw [listed, if_neg (by simp)] at hn
    obtain ⟨node, hnode⟩ := ne_none_iff_exists'.1 hn
    obtain ⟨before, after, heq, -⟩ := lookup_eq_some_iff.1 hnode
    have hall := all_eq_true.1 h (p ++ [n], node) (by rw [heq]; simp)
    rw [dropLast_concat] at hall
    split at hall
    · assumption
    · cases hall
    · cases hall
    · cases hall

end Updates
end FileTree
