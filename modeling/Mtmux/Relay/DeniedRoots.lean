import Mtmux.Relay.PathGate

/-! What is stored in the denied roots over a whole run of file messages of one connection. -/
namespace Mtmux.Relay
open Crypto Protocol FileTree List Option

/-! ### What a call leaves as it was -/

section Calls
variable {t after : Tree} {loc q old new : Location} {content : Bytes}

theorem node_writeAt (h : writeAt t loc content = some after) (hq : q ≠ loc) : after.node q = t.node q := by
  rw [writeAt] at h
  split at h
  · cases h
    rw [node_putFile, if_neg hq]
  · cases h

theorem node_createAt (h : createAt t loc content = some after) (hq : q ≠ loc) : after.node q = t.node q := by
  rw [createAt] at h
  split at h
  · cases h
  · exact node_writeAt h hq

theorem node_appendAt (h : appendAt t loc content = some after) (hq : q ≠ loc) :
    after.node q = t.node q := node_writeAt h hq

theorem node_mkdirAt (h : mkdirAt t loc = some after) (hq : q ≠ loc) : after.node q = t.node q := by
  rw [mkdirAt] at h
  split at h
  · cases h
    rw [node_addDir, if_neg hq]
  · cases h

theorem node_removeAt {recursive : Bool} (h : removeAt t loc recursive = some after)
    (hq : ¬ loc <+: q) : after.node q = t.node q := by
  rw [removeAt] at h
  split at h
  · cases h
    rw [node_remove, if_neg hq]
  · cases h

theorem node_removeAt_single (h : removeAt t loc false = some after) (hq : q ≠ loc)
    (hstored : t.node q ≠ none) : after.node q = t.node q := by
  refine node_removeAt h ?_
  rintro ⟨rest, rfl⟩
  have hrest : rest ≠ [] := by
    rintro rfl
    exact hq (append_nil _)
  have hdir := isDir_of_below hrest hstored
  rw [removeAt] at h
  split at h
  · rename_i hcan
    rcases hcan.2.2 with hrec | hfile
    · cases hrec
    · rw [hdir] at hfile
      cases hfile
  · cases h

theorem renameAt_full {rest : Location} (hrest : rest ≠ []) (hstored : t.node (new ++ rest) ≠ none)
    (hne : old ≠ new) : renameAt t old new = none := by
  have hdir := isDir_of_below hrest hstored
  have hfull : t.isHollow new = false := by
    cases rest with
    | nil => exact absurd rfl hrest
    | cons n rest => exact not_isHollow_of_below hstored
  have hthere : t.node new ≠ none := exists_of_isSolid (isSolid_of_isDir hdir)
  rw [renameAt, if_neg hne, dif_neg]
  rintro ⟨-, -, -, -, hreplaced⟩
  rcases hreplaced with hnone | ⟨-, hfile⟩ | ⟨-, hempty⟩
  · exact hthere hnone
  · rw [hdir] at hfile
    cases hfile
  · rw [hfull] at hempty
    cases hempty

theorem node_renameAt (h : renameAt t old new = some after) (hold : old ≠ new → ¬ old <+: q)
    (hq : q ≠ new) (hstored : t.node q ≠ none) : after.node q = t.node q := by
  by_cases hne : old = new
  · rw [renameAt, if_pos hne] at h
    split at h
    · cases h
      rfl
    · cases h
  · have hnew : ¬ new <+: q := by
      rintro ⟨rest, rfl⟩
      have hrest : rest ≠ [] := by
        rintro rfl
        exact hq (append_nil _)
      rw [renameAt_full hrest hstored hne] at h
      cases h
    rw [renameAt, if_neg hne] at h
    split at h
    · cases h
      rw [node_move, if_neg hnew, if_neg (hold hne)]
    · cases h

variable {io : CallEnd}

theorem node_performWrite {place : Option Location} {write : Tree → Location → Bytes → Option Tree}
    (hwrite : ∀ loc ∈ place, ∀ c after, write t loc c = some after → after.node q = t.node q) :
    (performWrite io t place content write).1.node q = t.node q := by
  cases place with
  | none => rfl
  | some loc =>
    cases io with
    | ok =>
      cases hw : write t loc content with
      | none => simp only [performWrite, hw]
      | some after =>
        simp only [performWrite, hw]
        exact hwrite loc rfl content after hw
    | fails left =>
      cases left with
      | none => rfl
      | some left =>
        cases hw : write t loc left with
        | none => simp only [performWrite, hw, getD_none]
        | some after =>
          simp only [performWrite, hw, getD_some]
          exact hwrite loc rfl left after hw

theorem node_perform {call : Option Tree}
    (hcall : io = .ok → ∀ after, call = some after → after.node q = t.node q) :
    (perform io t call).1.node q = t.node q := by
  cases io with
  | ok =>
    cases call with
    | none => rfl
    | some after => exact hcall rfl after rfl
  | fails left => cases call <;> rfl

end Calls

/-! ### A message -/

structure FileEvent where
  io : CallEnd
  msg : ClientMessage

/-- The operation takes the entry at a place away, with all that is below it. -/
inductive Takes (host : FileHost) (denied : List Location) (t : Tree) :
    FileEvent → Location → Prop where
  | delete {path : String} {loc : Location} {after : Tree}
      (allowed : isPathAllowed host t denied path = true)
      (unguarded : (host.allowedPaths.any fun root =>
        realpathResolve host t root = realpathResolve host t path) = false)
      (found : lookupPath host t (realpathResolve host t path) .entry = some loc)
      (removed : removeAt t loc true = some after) :
      Takes host denied t ⟨.ok, .fileDelete path⟩ loc
  | rename {oldPath newPath : String} {old new : Location} {after : Tree}
      (allowedOld : isPathAllowed host t denied oldPath = true)
      (allowedNew : isPathAllowed host t denied newPath = true)
      (found : lookupPath host t (realpathResolve host t oldPath) .entry = some old)
      (place : lookupPath host t (realpathResolve host t newPath) .entry = some new)
      (apart : old ≠ new) (moved : renameAt t old new = some after) :
      Takes host denied t ⟨.ok, .fileRename oldPath newPath⟩ old

namespace FileState
variable {host : FileHost} {denied : List Location} {s : FileState} {q : Location}

variable {path : String}

theorem mem_touched_of_lookup {kind : Lookup} {loc : Location} {t : Tree}
    (h : lookupPath host t (realpathResolve host t path) kind = some loc) : (path, loc) ∈ touchedBy host t path kind :=
  mem_map.2 ⟨loc, mem_toList.2 h, rfl⟩

theorem touched_path {content : String} {final : Bool} {x : String × Location}
    (h : x ∈ touched host s (.fileUpload path content final)) : x.1 = path := by
  have hin : ∀ kind, x ∈ touchedBy host s.tree path kind → x.1 = path := by
    intro kind hx
    obtain ⟨loc, -, rfl⟩ := mem_map.1 hx
    rfl
  simp only [touched] at h
  split at h
  · exact hin _ h
  · exact hin _ h

theorem node_removeQuietly (hstored : s.tree.node q ≠ none)
    (htouched : ∀ x ∈ touchedBy host s.tree path .entry, x.2 ≠ q) :
    (removeQuietly host s.tree io (realpathResolve host s.tree path)).node q = s.tree.node q := by
  refine node_perform fun _ after hcall => ?_
  obtain ⟨loc, hloc, hremove⟩ := bind_eq_some_iff.1 hcall
  exact node_removeAt_single hremove (htouched _ (mem_touched_of_lookup hloc)).symm hstored

theorem node_handleUpload {content : String} {final : Bool} (hstored : s.tree.node q ≠ none)
    (htouched : ∀ x ∈ touched host s (.fileUpload path content final), x.2 ≠ q) :
    (s.handleUpload host io path content final).1.tree.node q = s.tree.node q := by
  simp only [touched] at htouched
  simp only [handleUpload]
  split
  · rename_i hlarge
    rw [if_pos hlarge] at htouched
    exact node_removeQuietly hstored htouched
  · rename_i hsmall
    rw [if_neg hsmall] at htouched
    have hwritten : (writeChunk host s.tree io (realpathResolve host s.tree path)
        ((s.uploads.get (realpathResolve host s.tree path)).getD 0)
        (host.base64 content)).1.node q = s.tree.node q := by
      refine node_performWrite fun loc hloc c after hwrite => ?_
      have hne := (htouched _ (mem_touched_of_lookup hloc)).symm
      split at hwrite
      · exact node_writeAt hwrite hne
      · exact node_appendAt hwrite hne
    split
    · exact hwritten
    · exact hwritten

/-- A message changes a stored entry only at a place it touches, or by taking away what the
entry is in. -/
theorem handle_keeps {e : FileEvent} (hstored : s.tree.node q ≠ none)
    (htouched : ∀ x ∈ touched host s e.msg, isPathAllowed host s.tree denied x.1 = true → x.2 ≠ q)
    (htakes : ∀ loc, Takes host denied s.tree e loc → ¬ loc <+: q) :
    (s.handle host denied e.io e.msg).1.tree.node q = s.tree.node q := by
  obtain ⟨io, msg⟩ := e
  cases msg with
  | fileList _ | fileRead _ | fileStat _ =>
    simp only [handle, answered]
    split
    · cases io <;> rfl
    · rfl
  | fileWrite path content =>
    simp only [handle]
    split
    · rename_i hallowed
      simp only [touched] at htouched
      simp only [writeFile]
      split
      · rfl
      · split
        · rfl
        · rename_i hfound
          rw [hfound, isSome_some, if_pos rfl] at htouched
          exact node_performWrite fun loc hloc c after hwrite =>
            node_writeAt hwrite (htouched _ (mem_touched_of_lookup hloc) hallowed).symm
    · rfl
  | fileCreate path content =>
    simp only [handle, changed, createFile]
    split
    · rename_i hallowed
      exact node_performWrite fun loc hloc c after hwrite =>
        node_createAt hwrite (htouched _ (mem_touched_of_lookup hloc) hallowed).symm
    · rfl
  | fileMkdir path =>
    simp only [handle, changed, mkdir]
    split
    · rename_i hallowed
      refine node_perform fun _ after hcall => ?_
      obtain ⟨loc, hloc, hmake⟩ := bind_eq_some_iff.1 hcall
      exact node_mkdirAt hmake (htouched _ (mem_touched_of_lookup hloc) hallowed).symm
    · rfl
  | fileDelete path =>
    simp only [handle, changed, deleteFile]
    split
    · rename_i hallowed
      split
      · rfl
      · rename_i hguard
        refine node_perform fun hio after hcall => ?_
        obtain ⟨loc, hloc, hremove⟩ := bind_eq_some_iff.1 hcall
        cases hio
        exact node_removeAt hremove
          (htakes loc (.delete hallowed (by simpa using hguard) hloc hremove))
    · rfl
  | fileRename oldPath newPath =>
    simp only [handle, changed, renameFile]
    split
    · rename_i hallowed
      obtain ⟨hallowedOld, hallowedNew⟩ := Bool.and_eq_true_iff.1 hallowed
      refine node_perform fun hio after hcall => ?_
      obtain ⟨old, hold, hrest⟩ := bind_eq_some_iff.1 hcall
      obtain ⟨new, hnew, hmove⟩ := bind_eq_some_iff.1 hrest
      cases hio
      have hne := htouched _ (mem_append_right _ (mem_touched_of_lookup hnew)) hallowedNew
      exact node_renameAt hmove
        (fun hapart => htakes old (.rename hallowedOld hallowedNew hold hnew hapart hmove))
        hne.symm hstored
    · rfl
  | fileUpload path content final =>
    simp only [handle]
    split
    · rename_i hallowed
      refine node_handleUpload hstored fun x hx => htouched x hx ?_
      rw [touched_path hx]
      exact hallowed
    · rfl
  | _ => rfl

end FileState

/-! ### A run -/

def StoredIn (denied : List Location) (t : Tree) (l : Location) : Prop :=
  ∃ root ∈ denied, root <+: l ∧ t.node l ≠ none

/-- What is read of a file is cut off at the limit. -/
def shownText (host : FileHost) (content : Bytes) : String × Bool :=
  if maxFileSize < content.length then (host.utf8 (content.take maxFileSize), true)
  else (host.utf8 content, false)

/-- The replies that say what is at a place. -/
inductive Shows (host : FileHost) (t : Tree) : FileReply → Location → Prop where
  | content {path : String} {loc : Location} {content : Bytes} (read : readAt t loc = some content) :
      Shows host t (.content path (shownText host content).1 (shownText host content).2) loc
  | list {path : String} {loc : Location} (dir : t.isDir loc = true) :
      Shows host t (.list path ((t.entriesOf loc).filterMap (listEntry host t))) loc
  | stat {loc : Location} {node : FileNode FileName Bytes} (found : t.node loc = some node) :
      Shows host t (.stat ⟨loc, nodeType node, nodeSize node⟩) loc

/-- A reply that answers a reading operation. -/
def FileReply.carries : FileReply → Bool
  | .content _ _ _ => true
  | .list _ _ => true
  | .stat _ => true
  | .accessDenied => false
  | .failed => false
  | .writeResult _ _ => false
  | .opResult _ _ _ => false

section Run
variable (host : FileHost) (start : FileState)

def deniedAtStart : List Location := resolvedDenied host start.tree

def runFiles (es : List FileEvent) : FileState :=
  es.foldl (fun s e => (s.handle host (deniedAtStart host start) e.io e.msg).1) start

theorem runFiles_snoc (es : List FileEvent) (e : FileEvent) : runFiles host start (es ++ [e]) =
      ((runFiles host start es).handle host (deniedAtStart host start) e.io e.msg).1 := by
  simp [runFiles]

/-- What was stored in the denied roots stays, and is not what an operation reads. -/
structure DeniedClosed (es : List FileEvent) : Prop where
  kept : ∀ before, before <+: es → ∀ l, StoredIn (deniedAtStart host start) start.tree l →
    (runFiles host start before).tree.node l = start.tree.node l
  unread : ∀ before e, before ++ [e] <+: es → ∀ reply,
    ((runFiles host start before).handle host (deniedAtStart host start) e.io e.msg).2 = some reply →
    reply.carries = true → ∃ loc, OutsideDenied (deniedAtStart host start) loc ∧
      Shows host (runFiles host start before).tree reply loc

/-- No step deletes or renames what a denied root is in. -/
def LeavesAbove (es : List FileEvent) : Prop :=
  ∀ before e, before ++ [e] <+: es → ∀ loc,
    Takes host (deniedAtStart host start) (runFiles host start before).tree e loc →
    ∀ root ∈ deniedAtStart host start, start.tree.node root ≠ none → ¬ loc <+: root

end Run

section Steps
variable {host : FileHost} {denied : List Location} {s : FileState} {path : String}
  {loc : Location}

theorem place_of_lookup {t : Tree} {kind : Lookup} (hkind : kind ≠ .created)
    (h : lookupPath host t (realpathResolve host t path) kind = some loc) : loc = realpathResolve host t path := by
  rcases lookup_cases (realpathResolve_cases host t path) h with ⟨heq, -⟩ | ⟨hc, -⟩
  · exact heq
  · exact absurd hc hkind

theorem outside_of_touched {msg : ClientMessage} (hroot : [] ∉ denied)
    (hpass : isPathAllowed host s.tree denied path = true) (h : (path, loc) ∈ touched host s msg) :
    OutsideDenied denied loc ∨ s.tree.node loc = none := by
  rcases touched_cases h with heq | ⟨-, -, -, hmissing⟩
  · rw [heq]
    exact .inl (outsideDenied_of_allowed hroot hpass)
  · exact .inr hmissing

variable {e : FileEvent}

theorem outside_of_takes (hroot : [] ∉ denied) (h : Takes host denied s.tree e loc) : OutsideDenied denied loc := by
  cases h with
  | delete allowed unguarded found removed =>
    rw [place_of_lookup (by simp) found]
    exact outsideDenied_of_allowed hroot allowed
  | rename allowedOld allowedNew found place apart moved =>
    rw [place_of_lookup (by simp) found]
    exact outsideDenied_of_allowed hroot allowedOld

theorem node_above {t : Tree} {root l : Location} (hin : root <+: l) (h : t.node l ≠ none) : t.node root ≠ none := by
  obtain ⟨rest, rfl⟩ := hin
  cases rest with
  | nil => rwa [append_nil] at h
  | cons n rest =>
    exact exists_of_isSolid (isSolid_of_isDir (isDir_of_below (by simp) h))

theorem handle_stored {root l : Location} (hroot : [] ∉ denied)
    (hmem : root ∈ denied) (hin : root <+: l) (hstored : s.tree.node l ≠ none)
    (hleaves : ∀ loc, Takes host denied s.tree e loc → ¬ loc <+: root) :
    (s.handle host denied e.io e.msg).1.tree.node l = s.tree.node l := by
  refine FileState.handle_keeps hstored ?_ ?_
  · rintro ⟨path, loc⟩ hx hpass rfl
    rcases outside_of_touched hroot hpass hx with hout | hmissing
    · exact hout root hmem hin
    · exact hstored hmissing
  · intro loc htakes hloc
    rcases prefix_or_prefix_of_prefix hloc hin with habove | hbelow
    · exact hleaves loc htakes habove
    · exact outside_of_takes hroot htakes root hmem hbelow

variable {reply : FileReply}

theorem guarded_quiet {allowed : Bool} {answer : FileState × Option FileReply}
    (hquiet : ∀ r, answer.2 = some r → r.carries = false)
    (h : (if allowed = true then answer else (s, some .accessDenied)).2 = some reply) :
    reply.carries = false := by
  split at h
  · exact hquiet reply h
  · cases h
    rfl

theorem quiet_some {r : FileReply} (hr : r.carries = false) : some r = some reply → reply.carries = false := by
  intro h
  rw [← Option.some.inj h]
  exact hr

theorem list_shows {entries : List ListedEntry} (hroot : [] ∉ denied)
    (hpass : isPathAllowed host s.tree denied path = true) (h : listDirectory host s.tree path = some entries) :
    ∃ loc, OutsideDenied denied loc ∧ Shows host s.tree (.list path entries) loc := by
  rw [listDirectory] at h
  split at h
  · cases h
  · rename_i loc hloc
    split at h
    · rename_i hdir
      cases h
      refine ⟨loc, ?_, .list hdir⟩
      rw [place_of_lookup (by simp) hloc]
      exact outsideDenied_of_allowed hroot hpass
    · cases h

theorem read_shows {text : String} {truncated : Bool} (hroot : [] ∉ denied)
    (hpass : isPathAllowed host s.tree denied path = true) (h : readFile host s.tree path = some (text, truncated)) :
    ∃ loc, OutsideDenied denied loc ∧ Shows host s.tree (.content path text truncated) loc := by
  rw [readFile] at h
  split at h
  · cases h
  · rename_i content hcontent
    obtain ⟨loc, hloc, hat⟩ := bind_eq_some_iff.1 hcontent
    have hshown : shownText host content = (text, truncated) := by
      rw [shownText]
      split at h
      · rename_i hlarge
        rw [if_pos hlarge]
        exact Option.some.inj h
      · rename_i hsmall
        rw [if_neg hsmall]
        exact Option.some.inj h
    have hshows : Shows host s.tree
        (.content path (shownText host content).1 (shownText host content).2) loc := .content hat
    rw [hshown] at hshows
    refine ⟨loc, ?_, hshows⟩
    rw [place_of_lookup (by simp) hloc]
    exact outsideDenied_of_allowed hroot hpass

theorem stat_shows {stat : FileStats} (hroot : [] ∉ denied) (hpass : isPathAllowed host s.tree denied path = true)
    (h : getStats host s.tree path = some stat) :
    ∃ loc, OutsideDenied denied loc ∧ Shows host s.tree (.stat stat) loc := by
  rw [getStats] at h
  split at h
  · cases h
  · rename_i node hnode
    obtain ⟨loc, hloc, hat⟩ := bind_eq_some_iff.1 hnode
    have hplace := place_of_lookup (by simp) hloc
    cases h
    exact ⟨_, outsideDenied_of_allowed hroot hpass, .stat (hplace ▸ hat)⟩

theorem answered_carries {answer : Option FileReply}
    (h : (s.answered io answer).2 = some reply) (hcarries : reply.carries = true) : answer = some reply := by
  cases io with
  | ok =>
    cases answer with
    | none =>
      simp only [FileState.answered, getD_none, Option.some.injEq] at h
      rw [← h] at hcarries
      cases hcarries
    | some r => simpa [FileState.answered] using h
  | fails left =>
    simp only [FileState.answered, Option.some.injEq] at h
    rw [← h] at hcarries
    cases hcarries

theorem handle_shows {msg : ClientMessage} (hroot : [] ∉ denied)
    (h : (s.handle host denied io msg).2 = some reply) (hcarries : reply.carries = true) :
    ∃ loc, OutsideDenied denied loc ∧ Shows host s.tree reply loc := by
  cases msg with
  | fileList path =>
    simp only [FileState.handle] at h
    split at h
    · rename_i hallowed
      obtain ⟨entries, hlist, rfl⟩ := map_eq_some_iff.1 (answered_carries h hcarries)
      exact list_shows hroot hallowed hlist
    · cases h
      cases hcarries
  | fileRead path =>
    simp only [FileState.handle] at h
    split at h
    · rename_i hallowed
      obtain ⟨⟨text, truncated⟩, hread, rfl⟩ :=
        map_eq_some_iff.1 (answered_carries h hcarries)
      exact read_shows hroot hallowed hread
    · cases h
      cases hcarries
  | fileStat path =>
    simp only [FileState.handle] at h
    split at h
    · rename_i hallowed
      obtain ⟨stat, hstat, rfl⟩ := map_eq_some_iff.1 (answered_carries h hcarries)
      exact stat_shows hroot hallowed hstat
    · cases h
      cases hcarries
  | fileWrite _ _ | fileCreate _ _ | fileMkdir _ | fileDelete _ | fileRename _ _ =>
    rw [guarded_quiet (fun r => quiet_some rfl) h] at hcarries
    cases hcarries
  | fileUpload path content final =>
    simp only [FileState.handle] at h
    split at h
    · simp only at h
      split at h
      · cases h
      · cases h
        cases hcarries
    · cases h
      cases hcarries
  | _ => cases h

/-- What takes a place away leaves nothing below it. -/
theorem handle_taken {q : Location} (h : Takes host denied s.tree e loc)
    (hq : loc <+: q) : (s.handle host denied e.io e.msg).1.tree.node q = none := by
  cases h with
  | @delete path loc after allowed unguarded found removed =>
    have hnode : after.node q = none := by
      rw [removeAt] at removed
      split at removed
      · cases removed
        rw [node_remove, if_pos hq]
      · cases removed
    have hguard : ¬ ((host.allowedPaths.any fun root =>
        realpathResolve host s.tree root = realpathResolve host s.tree path) = true) := by
      rw [unguarded]
      simp
    simp only [FileState.handle, allowed, if_true, FileState.changed, deleteFile, if_neg hguard,
      found, bind_some, removed, perform]
    exact hnode
  | @rename oldPath newPath _ new after allowedOld allowedNew found place apart moved =>
    have hnode : after.node q = none := by
      have hnew : ¬ new <+: q := by
        intro hin
        have hout : ¬ loc <+: new := by
          intro hinto
          rw [renameAt, if_neg apart, dif_neg (fun hcan => hcan.2.2.1 hinto)] at moved
          cases moved
        obtain ⟨rest, rfl⟩ := ( prefix_or_prefix_of_prefix hq hin).resolve_left hout
        have hrest : rest ≠ [] := by
          rintro rfl
          exact apart (append_nil _)
        have hthere : s.tree.node (new ++ rest) ≠ none := by
          intro hnone
          rw [renameAt, if_neg apart, dif_neg (fun hcan => by simp [hnone] at hcan)] at moved
          cases moved
        rw [renameAt_full hrest hthere apart] at moved
        cases moved
      rw [renameAt, if_neg apart] at moved
      split at moved
      · cases moved
        rw [node_move, if_neg hnew, if_pos hq]
      · cases moved
    simp only [FileState.handle, allowedOld, allowedNew, Bool.and_self, if_true, FileState.changed,
      renameFile, found, place, bind_some, moved, perform]
    exact hnode

end Steps

section Claims
variable {host : FileHost} {start : FileState} {es : List FileEvent}

theorem kept_of_leavesAbove (hroot : [] ∉ deniedAtStart host start)
    (hleaves : LeavesAbove host start es) (before : List FileEvent) (hbefore : before <+: es)
    (l : Location) (hl : StoredIn (deniedAtStart host start) start.tree l) :
    (runFiles host start before).tree.node l = start.tree.node l := by
  induction before using List.reverseRecOn with
  | nil => rfl
  | append_singleton before e ih =>
    have hprev := ih ((prefix_append _ _).trans hbefore)
    obtain ⟨root, hmem, hin, hnode⟩ := hl
    rw [runFiles_snoc, handle_stored hroot hmem hin (by rw [hprev]; exact hnode), hprev]
    intro loc htakes
    exact hleaves before e hbefore loc htakes root hmem (node_above hin hnode)

theorem leavesAbove_of_kept (hkept : ∀ before, before <+: es → ∀ l, StoredIn (deniedAtStart host start) start.tree l →
      (runFiles host start before).tree.node l = start.tree.node l) : LeavesAbove host start es := by
  intro before e hbefore loc htakes root hmem hstored habove
  have hroot : StoredIn (deniedAtStart host start) start.tree root :=
    ⟨root, hmem, prefix_refl root, hstored⟩
  have hpost := hkept (before ++ [e]) hbefore root hroot
  rw [runFiles_snoc, handle_taken htakes habove] at hpost
  exact hstored hpost.symm

/-- What was stored in a denied root at the start is kept and stays unread in every run, if
and only if no step deletes or renames what an existing denied root is in. -/
theorem denied_closed_iff (host : FileHost) (start : FileState) (es : List FileEvent)
    (hroot : [] ∉ deniedAtStart host start) : DeniedClosed host start es ↔ LeavesAbove host start es := by
  constructor
  · intro hclosed
    exact leavesAbove_of_kept hclosed.kept
  · intro hleaves
    refine ⟨kept_of_leavesAbove hroot hleaves, ?_⟩
    intro before e hbefore reply hreply hcarries
    exact handle_shows hroot hreply hcarries

def uploadsNote : List FileEvent :=
  [⟨.ok, .fileUpload "/home/u/note" "x" true⟩, ⟨.ok, .fileRead "/home/u/note"⟩]

theorem uploadsNote_closed : DeniedClosed homeHost homeState uploadsNote ↔ LeavesAbove homeHost homeState uploadsNote :=
  denied_closed_iff homeHost homeState uploadsNote (by decide +kernel)

/-- The directory above a denied root is renamed, and the credential read where it is now. -/
def renamesSettings : List FileEvent :=
  [⟨.ok, .fileRename "/home/u/.config" "/home/u/c"⟩, ⟨.ok, .fileRead "/home/u/c/gh/config.json"⟩]

theorem credential_is_read : ((runFiles homeHost homeState [⟨.ok, .fileRename "/home/u/.config" "/home/u/c"⟩]).handle
        homeHost (deniedAtStart homeHost homeState) .ok (.fileRead "/home/u/c/gh/config.json")).2 =
      some (.content "/home/u/c/gh/config.json" "k" false) ∧ ¬ DeniedClosed homeHost homeState renamesSettings := by
  refine ⟨by decide +kernel, fun hclosed => ?_⟩
  have hthere : (homeState.tree.node
      [homeName, userName, settingsName, ghName, tokenName]).isSome = true := by decide +kernel
  have hgone : ((runFiles homeHost homeState renamesSettings).tree.node
      [homeName, userName, settingsName, ghName, tokenName]).isSome = false := by decide +kernel
  have hstored : StoredIn (deniedAtStart homeHost homeState) homeState.tree
      [homeName, userName, settingsName, ghName, tokenName] :=
    ⟨[homeName, userName, settingsName, ghName], by decide +kernel,
      prefix_append [homeName, userName, settingsName, ghName] [tokenName],
      isSome_iff_ne_none.1 hthere⟩
  rw [hclosed.kept renamesSettings (prefix_refl _) _ hstored, hthere] at hgone
  cases hgone

end Claims
end Mtmux.Relay
