import Mtmux.Relay.DeniedRoots

/-! Uploads in chunks over a whole run: what the counter of a path says of the file, and where
it goes wrong. -/
namespace Mtmux.Relay
open Crypto Protocol OrderedMap FileTree List

/-- A chunk that arrives, and how the calls made for it end. -/
structure UploadEvent where
  io : CallEnd
  path : String
  content : String
  final : Bool

def UploadEvent.msg (e : UploadEvent) : ClientMessage := .fileUpload e.path e.content e.final

def place (host : FileHost) (t : Tree) (path : String) : Option Location :=
  lookupPath host t (realpathResolve host t path) .created

/-- The relay, with the chunks that were sent for each file since the last outcome that was
reported for it. -/
structure Transfer where
  state : FileState
  pending : Location → Bytes

namespace Transfer
variable (host : FileHost) (denied : List Location)

def begin (tree : Tree) : Transfer := ⟨⟨tree, .empty⟩, fun _ => []⟩

def reply (x : Transfer) (e : UploadEvent) : Option FileReply :=
  (x.state.handle host denied e.io e.msg).2

/-- A chunk counts for the file until there is a report. -/
def pendingAfter (x : Transfer) (e : UploadEvent) (reply : Option FileReply) (loc : Location) :
    Bytes :=
  if place host x.state.tree e.path = some loc then
    if reply.isSome then [] else x.pending loc ++ host.base64 e.content
  else x.pending loc

def step (x : Transfer) (e : UploadEvent) : Transfer where
  state := (x.state.handle host denied e.io e.msg).1
  pending := x.pendingAfter host e (x.reply host denied e)

def run (tree : Tree) (es : List UploadEvent) : Transfer := es.foldl (step host denied) (begin tree)

theorem run_snoc (tree : Tree) (es : List UploadEvent) (e : UploadEvent) :
    run host denied tree (es ++ [e]) = (run host denied tree es).step host denied e := by
  simp [run]

/-- The bytes that the state has for a path. -/
def counter (x : Transfer) (loc : Location) : Nat := (x.state.uploads.get loc).getD 0

inductive Received (x : Transfer) (e : UploadEvent) : FileState → Option FileReply → Prop where
  | refused (denies : isPathAllowed host x.state.tree denied e.path = false) :
      Received x e x.state (some .accessDenied)
  | tooLarge (allowed : isPathAllowed host x.state.tree denied e.path = true)
      (large : maxUploadBytes <
        x.counter (realpathResolve host x.state.tree e.path) + (host.base64 e.content).length) :
      Received x e
        { tree := removeQuietly host x.state.tree e.io (realpathResolve host x.state.tree e.path)
          uploads := x.state.uploads.delete (realpathResolve host x.state.tree e.path) }
        (some (.opResult "upload" e.path false))
  | stored {loc : Location} {after : Tree}
      (allowed : isPathAllowed host x.state.tree denied e.path = true)
      (small : x.counter (realpathResolve host x.state.tree e.path) +
        (host.base64 e.content).length ≤ maxUploadBytes)
      (io : e.io = .ok) (found : place host x.state.tree e.path = some loc)
      (written : (if x.counter (realpathResolve host x.state.tree e.path) = 0 then writeAt
        else appendAt) x.state.tree loc (host.base64 e.content) = some after) :
      Received x e
        { tree := after
          uploads :=
            if e.final then x.state.uploads.delete (realpathResolve host x.state.tree e.path)
            else x.state.uploads.set (realpathResolve host x.state.tree e.path)
              (x.counter (realpathResolve host x.state.tree e.path) +
                (host.base64 e.content).length) }
        (if e.final then some (.opResult "upload" e.path true) else none)
  | failed (allowed : isPathAllowed host x.state.tree denied e.path = true)
      (small : x.counter (realpathResolve host x.state.tree e.path) +
        (host.base64 e.content).length ≤ maxUploadBytes)
      (fails : (writeChunk host x.state.tree e.io (realpathResolve host x.state.tree e.path)
        (x.counter (realpathResolve host x.state.tree e.path))
        (host.base64 e.content)).2 = false) :
      Received x e
        { x.state with
          tree := (writeChunk host x.state.tree e.io (realpathResolve host x.state.tree e.path)
            (x.counter (realpathResolve host x.state.tree e.path)) (host.base64 e.content)).1 }
        (some (.opResult "upload" e.path false))

end Transfer

section Received
variable {host : FileHost} {denied : List Location} {x : Transfer} {e : UploadEvent}

theorem performWrite_true {io : CallEnd} {t : Tree} {loc : Option Location} {content : Bytes}
    {write : Tree → Location → Bytes → Option Tree} (h : (performWrite io t loc content write).2 = true) :
    ∃ found after, loc = some found ∧ io = .ok ∧ write t found content = some after ∧
      (performWrite io t loc content write).1 = after := by
  cases loc with
  | none => cases h
  | some found =>
    cases io with
    | ok =>
      cases hw : write t found content with
      | none =>
        simp only [performWrite, hw] at h
        cases h
      | some after => exact ⟨found, after, rfl, rfl, hw, by simp only [performWrite, hw]⟩
    | fails left => cases left <;> cases h

theorem received (host : FileHost) (denied : List Location) (x : Transfer) (e : UploadEvent) :
    x.Received host denied e (x.state.handle host denied e.io e.msg).1 (x.reply host denied e) := by
  have hreply : x.reply host denied e = (x.state.handle host denied e.io e.msg).2 := rfl
  rw [hreply]
  simp only [UploadEvent.msg, FileState.handle]
  split
  · rename_i hallowed
    simp only [FileState.handleUpload]
    split
    · rename_i hlarge
      exact .tooLarge hallowed hlarge
    · rename_i hsmall
      split
      · rename_i hwritten
        obtain ⟨loc, after, hfound, hio, hwrite, htree⟩ := performWrite_true hwritten
        have hchunk : (writeChunk host x.state.tree e.io (realpathResolve host x.state.tree e.path)
            ((x.state.uploads.get (realpathResolve host x.state.tree e.path)).getD 0)
            (host.base64 e.content)).1 = after := htree
        have hstored := Transfer.Received.stored hallowed (Nat.le_of_not_lt hsmall) hio hfound hwrite
        simp only [hchunk]
        cases hfinal : e.final with
        | false =>
          simp only [hfinal] at hstored
          exact hstored
        | true =>
          simp only [hfinal] at hstored
          exact hstored
      · rename_i hfails
        exact .failed hallowed (Nat.le_of_not_lt hsmall) (Bool.eq_false_iff.2 hfails)
  · rename_i hdenies
    exact .refused (by simpa using hdenies)

end Received

/-! ### One chunk -/

/-- A chunk that the counter is made for: an upload under way is not refused and its append does
not fail, and only a whole upload, or an empty chunk, goes through a link that leads to no file. -/
structure Steady (host : FileHost) (denied : List Location) (x : Transfer) (e : UploadEvent) :
    Prop where
  goesOn : x.counter (realpathResolve host x.state.tree e.path) ≠ 0 →
    isPathAllowed host x.state.tree denied e.path = true ∧
      (x.counter (realpathResolve host x.state.tree e.path) + (host.base64 e.content).length ≤
        maxUploadBytes → e.io = .ok)
  direct : (∃ target, x.state.tree.node (realpathResolve host x.state.tree e.path) =
      some (.link target)) →
    isPathAllowed host x.state.tree denied e.path = true → e.io = .ok →
    place host x.state.tree e.path ≠ none →
    (host.base64 e.content).length ≤ maxUploadBytes → e.final = true ∨ host.base64 e.content = []

structure Tracked (x : Transfer) : Prop where
  counted : ∀ loc, x.counter loc = (x.pending loc).length
  held : ∀ loc, x.pending loc ≠ [] → x.state.tree.node loc = some (.file (x.pending loc))

/-- The file that an upload names. -/
abbrev Transfer.key (x : Transfer) (host : FileHost) (e : UploadEvent) : Location := realpathResolve host x.state.tree e.path

section Step
variable {host : FileHost} {denied : List Location} {x : Transfer} {e : UploadEvent}
  {loc q : Location}

theorem Tracked.pending_nil (h : Tracked x) (hzero : x.counter loc = 0) : x.pending loc = [] :=
  eq_nil_of_length_eq_zero ((h.counted loc).symm.trans hzero)

theorem Tracked.solid (h : Tracked x) (hpending : x.pending loc ≠ []) : x.state.tree.isSolid loc = true := by
  rw [FileTree.isSolid, h.held loc hpending]

theorem place_cases (hfound : place host x.state.tree e.path = some loc) :
    loc = x.key host e ∨
      (∃ target, x.state.tree.node (x.key host e) =
        some (.link target)) ∧ x.state.tree.node loc = none := by
  rcases lookup_cases (realpathResolve_cases host x.state.tree e.path) hfound with
    ⟨heq, -⟩ | ⟨-, hlink, hmissing⟩
  · exact .inl heq
  · exact .inr ⟨hlink, hmissing⟩

theorem place_of_solid (h : x.state.tree.isSolid (x.key host e) = true) :
    place host x.state.tree e.path = some (x.key host e) := by
  rw [place, lookupPath, walk_solid_path h]
  rfl

theorem Tracked.place_nil (h : Tracked x) (hzero : x.counter (x.key host e) = 0)
    (hfound : place host x.state.tree e.path = some loc) : x.pending loc = [] := by
  rcases place_cases hfound with rfl | ⟨-, hmissing⟩
  · exact h.pending_nil hzero
  · by_contra hpending
    rw [h.held loc hpending] at hmissing
    cases hmissing

theorem Tracked.resolved_nil (h : Tracked x) (hfound : place host x.state.tree e.path ≠
      some (x.key host e)) : x.pending (x.key host e) = [] := by
  by_contra hpending
  exact hfound (place_of_solid (h.solid hpending))

variable {reply : FileReply} {state : FileState}

theorem Tracked.reset (h : Tracked x) (hcount : ∀ loc, (state.uploads.get loc).getD 0 =
      (x.pendingAfter host e (some reply) loc).length)
    (hnode : ∀ loc, x.pending loc ≠ [] → place host x.state.tree e.path ≠ some loc →
      state.tree.node loc = x.state.tree.node loc) : Tracked ⟨state, x.pendingAfter host e (some reply)⟩ := by
  refine ⟨hcount, fun loc hpending => ?_⟩
  have hother : place host x.state.tree e.path ≠ some loc := by
    intro hfound
    refine hpending ?_
    simp [Transfer.pendingAfter, hfound]
  have hsame : x.pendingAfter host e (some reply) loc = x.pending loc := by
    rw [Transfer.pendingAfter, if_neg hother]
  simp only at hpending ⊢
  rw [hsame] at hpending ⊢
  rw [hnode loc hpending hother]
  exact h.held loc hpending

theorem Tracked.length_pendingAfter (h : Tracked x)
    (hzero : ∀ found, place host x.state.tree e.path = some found → x.pending found = [])
    (loc : Location) : (x.pendingAfter host e (some reply) loc).length = x.counter loc := by
  rw [h.counted, Transfer.pendingAfter]
  split
  · rename_i hfound
    rw [hzero loc hfound]
    rfl
  · rfl

theorem Tracked.refused (h : Tracked x) (hs : Steady host denied x e)
    (hdenies : isPathAllowed host x.state.tree denied e.path = false) {reply : FileReply} :
    Tracked ⟨x.state, x.pendingAfter host e (some reply)⟩ := by
  have hzero : x.counter (x.key host e) = 0 := by
    by_contra hne
    rw [(hs.goesOn hne).1] at hdenies
    cases hdenies
  refine h.reset (fun loc => ?_) (fun loc _ _ => rfl)
  rw [h.length_pendingAfter (fun found hfound => h.place_nil hzero hfound)]
  rfl

theorem Tracked.tooLarge (h : Tracked x) :
    Tracked
      ⟨{ tree := removeQuietly host x.state.tree e.io (x.key host e)
         uploads := x.state.uploads.delete (x.key host e) },
        x.pendingAfter host e (some reply)⟩ := by
  refine h.reset (fun loc => ?_) (fun loc hpending hother => ?_)
  · simp only [get_delete]
    by_cases hkey : loc = x.key host e
    · rw [if_pos hkey, hkey, Transfer.pendingAfter]
      split
      · rfl
      · rename_i hfound
        rw [h.resolved_nil hfound]
        rfl
    · rw [if_neg hkey, Transfer.pendingAfter]
      split
      · rename_i hfound
        rcases place_cases hfound with heq | ⟨-, hmissing⟩
        · exact absurd heq hkey
        · have hnil : x.pending loc = [] := by
            by_contra hpending
            rw [h.held loc hpending] at hmissing
            cases hmissing
          have hcounted := h.counted loc
          rw [hnil] at hcounted
          exact hcounted
      · exact h.counted loc
  · have hkey : loc ≠ x.key host e := by
      rintro rfl
      exact hother (place_of_solid (h.solid hpending))
    refine FileState.node_removeQuietly (by rw [h.held loc hpending]; simp) ?_
    rintro ⟨path, found⟩ hfound
    obtain ⟨rfl, hlook⟩ := mem_touchedBy hfound
    rw [place_of_lookup (by simp) hlook]
    exact hkey.symm

variable {after : Tree}

section
variable (h : Tracked x)
include h

theorem Tracked.written
    (hfound : place host x.state.tree e.path = some loc)
    (hwrite : (if x.counter (x.key host e) = 0 then writeAt
      else appendAt) x.state.tree loc (host.base64 e.content) = some after) :
    after.node loc = some (.file (x.pending loc ++ host.base64 e.content)) ∧
      ∀ q, q ≠ loc → after.node q = x.state.tree.node q := by
  have hput : ∀ {content : Bytes}, writeAt x.state.tree loc content = some after →
      after.node loc = some (.file content) := by
    intro content hw
    rw [writeAt] at hw
    split at hw
    · cases hw
      rw [node_putFile, if_pos rfl]
    · cases hw
  split at hwrite
  · rename_i hzero
    refine ⟨?_, fun q hq => node_writeAt hwrite hq⟩
    rw [h.place_nil hzero hfound, nil_append]
    exact hput hwrite
  · rename_i hcounter
    refine ⟨?_, fun q hq => node_appendAt hwrite hq⟩
    have hkey : x.pending (x.key host e) ≠ [] := by
      intro hnil
      rw [h.counted, hnil] at hcounter
      exact hcounter rfl
    have hloc : loc = x.key host e := by
      rw [place_of_solid (h.solid hkey)] at hfound
      exact (Option.some.inj hfound).symm
    rw [← hloc] at hkey
    have hread : readAt x.state.tree loc = some (x.pending loc) := by
      rw [readAt, h.held loc hkey]
    rw [appendAt, hread] at hwrite
    exact hput hwrite

theorem Tracked.place_counter (hfound : place host x.state.tree e.path = some loc)
    (hkey : loc ≠ x.key host e) :
    x.pending loc = [] ∧ x.pending (x.key host e) = [] := by
  constructor
  · rcases place_cases hfound with heq | ⟨-, hmissing⟩
    · exact absurd heq hkey
    · by_contra hpending
      rw [h.held loc hpending] at hmissing
      cases hmissing
  · refine h.resolved_nil ?_
    rw [hfound]
    exact fun heq => hkey (Option.some.inj heq)

theorem Tracked.goes_on (hs : Steady host denied x e)
    (hallowed : isPathAllowed host x.state.tree denied e.path = true)
    (hsmall : x.counter (x.key host e) +
      (host.base64 e.content).length ≤ maxUploadBytes) (hio : e.io = .ok) (hfinal : e.final = false)
    (hfound : place host x.state.tree e.path = some loc)
    (hwrite : (if x.counter (x.key host e) = 0 then writeAt
      else appendAt) x.state.tree loc (host.base64 e.content) = some after) :
    Tracked
      ⟨{ tree := after
         uploads := x.state.uploads.set (x.key host e)
           (x.counter (x.key host e) + (host.base64 e.content).length) },
        x.pendingAfter host e none⟩ := by
  obtain ⟨hnode, hothers⟩ := h.written hfound hwrite
  have hpending : ∀ q, x.pendingAfter host e none q =
      if q = loc then x.pending loc ++ host.base64 e.content else x.pending q := by
    intro q
    rw [Transfer.pendingAfter, hfound]
    by_cases hq : q = loc
    · rw [if_pos (by rw [hq]), if_neg (by simp), if_pos hq, hq]
    · rw [if_neg (fun heq => hq (Option.some.inj heq).symm), if_neg hq]
  -- Through a link that leads to no file, only an empty chunk comes here.
  have hlink : loc ≠ x.key host e → host.base64 e.content = [] := by
    intro hkey
    rcases place_cases hfound with heq | ⟨hlink, -⟩
    · exact absurd heq hkey
    · rcases hs.direct hlink hallowed hio (by rw [hfound]; simp) (by omega) with htrue | hnil
      · rw [hfinal] at htrue
        cases htrue
      · exact hnil
  constructor
  · intro q
    simp only [Transfer.counter, get_set]
    rw [hpending]
    by_cases hkey : loc = x.key host e
    · rw [← hkey]
      by_cases hq : q = loc
      · rw [if_pos hq, if_pos hq, Option.getD_some, length_append, ← h.counted]
        rfl
      · rw [if_neg hq, if_neg hq]
        exact h.counted q
    · obtain ⟨hloc, hresolved⟩ := h.place_counter hfound hkey
      have hzero := h.counted (x.key host e)
      rw [hresolved, length_nil] at hzero
      rw [hlink hkey, hloc, append_nil]
      by_cases hq : q = x.key host e
      · rw [if_pos hq, if_neg (fun hql => hkey (hql.symm.trans hq)), hq, hresolved]
        simpa [Transfer.counter] using hzero
      · rw [if_neg hq]
        have hq2 := h.counted q
        split
        · rename_i hql
          rw [hql, hloc] at hq2
          rw [hql]
          exact hq2
        · exact hq2
  · intro q hne
    simp only at hne ⊢
    rw [hpending] at hne ⊢
    by_cases hq : q = loc
    · rw [if_pos hq, hq]
      exact hnode
    · rw [if_neg hq] at hne ⊢
      rw [hothers q hq]
      exact h.held q hne

/-- A last chunk that is written. -/
theorem Tracked.finished (hfound : place host x.state.tree e.path = some loc)
    (hwrite : (if x.counter (x.key host e) = 0 then writeAt
      else appendAt) x.state.tree loc (host.base64 e.content) = some after) :
    Tracked
      ⟨{ tree := after
         uploads := x.state.uploads.delete (x.key host e) },
        x.pendingAfter host e (some reply)⟩ := by
  obtain ⟨-, hothers⟩ := h.written hfound hwrite
  refine h.reset (fun q => ?_) (fun q _ hq => hothers q (by rintro rfl; exact hq hfound))
  simp only [get_delete]
  by_cases hkey : q = x.key host e
  · rw [if_pos hkey, hkey, Transfer.pendingAfter]
    split
    · rfl
    · rename_i hother
      rw [h.resolved_nil hother]
      rfl
  · rw [if_neg hkey, Transfer.pendingAfter]
    split
    · rename_i hq
      have hcounted := h.counted q
      rw [(h.place_counter hq hkey).1] at hcounted
      exact hcounted
    · exact h.counted q

theorem Tracked.counter_of_failed (hs : Steady host denied x e)
    (hsmall : x.counter (x.key host e) + (host.base64 e.content).length ≤ maxUploadBytes)
    (hfails : (writeChunk host x.state.tree e.io (x.key host e)
      (x.counter (x.key host e)) (host.base64 e.content)).2 = false) :
    x.counter (x.key host e) = 0 := by
  by_contra hcounter
  have hio := (hs.goesOn hcounter).2 hsmall
  have hkey : x.pending (x.key host e) ≠ [] := by
    intro hnil
    rw [h.counted, hnil] at hcounter
    exact hcounter rfl
  have hplace := place_of_solid (h.solid hkey)
  have hheld := h.held _ hkey
  have hcan : x.key host e ≠ [] ∧
      x.state.tree.isDir (x.key host e).dropLast = true ∧
      x.state.tree.isDir (x.key host e) = false := by
    refine ⟨?_, isDir_dropLast (by rw [hheld]; simp), by rw [FileTree.isDir, hheld]⟩
    intro hroot
    rw [hroot, x.state.tree.root] at hheld
    cases hheld
  rw [place] at hplace
  rw [writeChunk, hplace, if_neg hcounter, hio] at hfails
  simp only [performWrite, appendAt, writeAt, dif_pos hcan] at hfails
  cases hfails

theorem Tracked.failed
    (hzero : x.counter (x.key host e) = 0) :
    Tracked
      ⟨{ x.state with
          tree := (writeChunk host x.state.tree e.io (x.key host e)
            (x.counter (x.key host e)) (host.base64 e.content)).1 },
        x.pendingAfter host e (some reply)⟩ := by
  refine h.reset (fun loc => ?_) (fun q _ hother => ?_)
  · rw [h.length_pendingAfter (fun found hfound => h.place_nil hzero hfound)]
    rfl
  · refine node_performWrite fun loc hloc c after hwrite => ?_
    have hq : q ≠ loc := by
      rintro rfl
      exact hother hloc
    rw [if_pos hzero] at hwrite
    exact node_writeAt hwrite hq

theorem Tracked.step (hs : Steady host denied x e) : Tracked (x.step host denied e) := by
  have hrec := received host denied x e
  have hgoal : ∀ state reply, x.Received host denied e state reply →
      Tracked ⟨state, x.pendingAfter host e reply⟩ := by
    intro state reply hreceived
    cases hreceived with
    | refused denies => exact h.refused hs denies
    | tooLarge allowed large => exact h.tooLarge
    | stored allowed small io found written =>
      cases hfinal : e.final with
      | false => exact h.goes_on hs allowed small io hfinal found written
      | true => exact h.finished found written
    | failed allowed small fails => exact h.failed (h.counter_of_failed hs small fails)
  exact hgoal _ _ hrec

end

end Step

/-! ### A run -/

/-- Every chunk of the run is one that the counters are made for. -/
def SteadyRun (host : FileHost) (denied : List Location) (tree : Tree) (es : List UploadEvent) :
    Prop :=
  ∀ before e, before ++ [e] <+: es → Steady host denied (Transfer.run host denied tree before) e

structure UploadsExact (host : FileHost) (denied : List Location) (tree : Tree)
    (es : List UploadEvent) : Prop where
  /-- The file is the chunks since the last report, with the last one. -/
  success : ∀ before e, before ++ [e] <+: es →
    (Transfer.run host denied tree before).reply host denied e =
      some (.opResult "upload" e.path true) →
    ∃ loc, place host (Transfer.run host denied tree before).state.tree e.path = some loc ∧
      (Transfer.run host denied tree (before ++ [e])).state.tree.node loc =
        some (.file ((Transfer.run host denied tree before).pending loc ++
          host.base64 e.content)) ∧
      ((Transfer.run host denied tree before).pending loc ++ host.base64 e.content).length ≤
        maxUploadBytes
  /-- Nothing is kept of the upload, under its path or its file. -/
  failure : ∀ before e, before ++ [e] <+: es → ∀ reply,
    (Transfer.run host denied tree before).reply host denied e = some reply →
    reply ≠ .opResult "upload" e.path true → ∀ loc,
    loc = realpathResolve host (Transfer.run host denied tree before).state.tree e.path ∨
      place host (Transfer.run host denied tree before).state.tree e.path = some loc →
    (Transfer.run host denied tree (before ++ [e])).counter loc = 0
  disconnect : ∀ before, before <+: es → ∀ io,
    ((Transfer.run host denied tree before).state.cleanupUploads host io).uploads = .empty

section Run
variable {host : FileHost} {denied : List Location} {tree : Tree} {es : List UploadEvent}

theorem tracked_run (hs : SteadyRun host denied tree es) (before : List UploadEvent)
    (hbefore : before <+: es) : Tracked (Transfer.run host denied tree before) := by
  induction before using List.reverseRecOn with
  | nil => exact ⟨fun loc => rfl, fun loc hne => absurd rfl hne⟩
  | append_singleton before e ih =>
    rw [Transfer.run_snoc]
    exact (ih ((prefix_append _ _).trans hbefore)).step (hs before e hbefore)

theorem received_success {x : Transfer} {e : UploadEvent}
    {reply : Option FileReply} (h : x.Received host denied e state reply)
    (hreply : reply = some (.opResult "upload" e.path true)) :
    ∃ loc, place host x.state.tree e.path = some loc ∧
      x.counter (x.key host e) + (host.base64 e.content).length ≤
        maxUploadBytes ∧
      (if x.counter (x.key host e) = 0 then writeAt else appendAt)
        x.state.tree loc (host.base64 e.content) = some state.tree := by
  cases h with
  | refused denies => cases hreply
  | tooLarge allowed large => simp at hreply
  | stored allowed small io found written => exact ⟨_, found, small, written⟩
  | failed allowed small fails => simp at hreply

theorem received_failure {x : Transfer} {e : UploadEvent}
    {reply : FileReply} (htracked : Tracked x) (hs : Steady host denied x e)
    (h : x.Received host denied e state (some reply)) (hreply : reply ≠ .opResult "upload" e.path true) :
    (state.uploads.get (x.key host e)).getD 0 = 0 := by
  generalize hanswer : some reply = answer at h
  cases h with
  | refused denies =>
    by_contra hne
    rw [(hs.goesOn hne).1] at denies
    cases denies
  | tooLarge allowed large =>
    simp only [get_delete]
    rw [if_pos trivial]
    rfl
  | stored allowed small io found written =>
    split at hanswer
    · exact absurd (Option.some.inj hanswer) hreply
    · cases hanswer
  | failed allowed small fails => exact htracked.counter_of_failed hs small fails

/-- In a run of steady chunks every report of an upload is exact. -/
theorem uploads_exact (host : FileHost) (denied : List Location) (tree : Tree)
    (es : List UploadEvent) (hs : SteadyRun host denied tree es) : UploadsExact host denied tree es := by
  constructor
  · intro before e hbefore hreply
    have htracked := tracked_run hs before ((prefix_append _ _).trans hbefore)
    have hrec := received host denied (Transfer.run host denied tree before) e
    obtain ⟨loc, hfound, hsmall, hwrite⟩ := received_success hrec hreply
    refine ⟨loc, hfound, ?_, ?_⟩
    · rw [Transfer.run_snoc]
      exact (htracked.written hfound hwrite).1
    · rw [length_append, ← htracked.counted]
      by_cases hkey : loc =
          realpathResolve host (Transfer.run host denied tree before).state.tree e.path
      · rw [hkey]
        exact hsmall
      · rw [htracked.counted, (htracked.place_counter hfound hkey).1, length_nil]
        omega
  · intro before e hbefore reply hreply hfailure loc hloc
    have htracked := tracked_run hs before ((prefix_append _ _).trans hbefore)
    have hafter := tracked_run hs (before ++ [e]) hbefore
    have hrec := received host denied (Transfer.run host denied tree before) e
    rw [hreply] at hrec
    rcases hloc with rfl | hplace
    · rw [Transfer.run_snoc]
      exact received_failure htracked (hs before e hbefore) hrec hfailure
    · rw [hafter.counted, Transfer.run_snoc, Transfer.step]
      simp [Transfer.pendingAfter, hplace, hreply]
  · intro before hbefore io
    rfl

end Run

def uploadsTwice : List UploadEvent :=
  [⟨.ok, "/home/u/new", "YQ==", false⟩, ⟨.ok, "/home/u/new", "Yg==", true⟩]

theorem uploadsTwice_exact : UploadsExact homeHost (resolvedDenied homeHost homeTree) homeTree uploadsTwice := by
  refine uploads_exact homeHost _ homeTree uploadsTwice ?_
  rintro before e ⟨rest, hrest⟩
  rw [append_assoc, singleton_append] at hrest
  cases before with
  | nil =>
    have hfirst : e = ⟨.ok, "/home/u/new", "YQ==", false⟩ := (List.cons.inj hrest).1
    subst hfirst
    refine ⟨fun hne => absurd (by decide +kernel) hne, ?_⟩
    rintro ⟨target, hlink⟩
    have hmissing : (homeTree.node (realpathResolve homeHost homeTree "/home/u/new")).isSome =
        false := by decide +kernel
    have hthere : homeTree.node (realpathResolve homeHost homeTree "/home/u/new") =
        some (.link target) := hlink
    rw [hthere] at hmissing
    cases hmissing
  | cons first before =>
    have hcons := List.cons.inj hrest
    have hfirst : first = ⟨.ok, "/home/u/new", "YQ==", false⟩ := hcons.1
    have htail : before ++ e :: rest = [⟨.ok, "/home/u/new", "Yg==", true⟩] := hcons.2
    subst hfirst
    cases before with
    | nil =>
      have hlast : e = ⟨.ok, "/home/u/new", "Yg==", true⟩ := (List.cons.inj htail).1
      subst hlast
      exact ⟨fun _ => ⟨by decide +kernel, fun _ => rfl⟩, fun _ _ _ _ _ => .inl rfl⟩
    | cons second before =>
      have hlength := congrArg List.length htail
      simp at hlength

/-- An upload whose append fails is begun again, as a whole. -/
def failsBetween : List UploadEvent :=
  [⟨.ok, "/home/u/new", "YQ==", false⟩, ⟨.fails none, "/home/u/new", "Yg==", false⟩,
    ⟨.ok, "/home/u/new", "Yw==", true⟩]

/-- The new upload is appended to what the failed one left. -/
theorem stale_bytes_prepended :
    readAt (Transfer.run homeHost (resolvedDenied homeHost homeTree) homeTree failsBetween).state.tree
        (pathResolve [] "/home/u/new") = some [97, 99] ∧
      ¬ UploadsExact homeHost (resolvedDenied homeHost homeTree) homeTree failsBetween := by
  refine ⟨by decide +kernel, fun hexact => ?_⟩
  have hzero := hexact.failure [⟨.ok, "/home/u/new", "YQ==", false⟩]
    ⟨.fails none, "/home/u/new", "Yg==", false⟩ ⟨[⟨.ok, "/home/u/new", "Yw==", true⟩], rfl⟩
    (.opResult "upload" "/home/u/new" false) (by decide +kernel) (by decide)
    (pathResolve [] "/home/u/new") (.inl (by decide +kernel))
  have hleft : (Transfer.run homeHost (resolvedDenied homeHost homeTree) homeTree
      [⟨.ok, "/home/u/new", "YQ==", false⟩, ⟨.fails none, "/home/u/new", "Yg==", false⟩]).counter
        (pathResolve [] "/home/u/new") = 1 := by decide +kernel
  rw [cons_append, nil_append, hleft] at hzero
  cases hzero

end Mtmux.Relay
