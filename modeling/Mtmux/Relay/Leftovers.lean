import Mtmux.Relay.Teardown

/-! What is left of a connection once it has been taken down. -/
namespace Mtmux.Relay.Teardown
open OrderedMap Machine List
variable {host : Host} {resolve : String → String}

/-! ### Who keeps track of what is open -/

/-- A handler of `session:attach` that has not spawned its pty yet. -/
def Await.Attaches : Await → Prop
  | .dropped .. | .found _ | .captured | .cloned | .locked _ | .unlocked => True
  | _ => False

/-- `createReadOnlyClone` has not returned. -/
def Await.Clones : Await → Prop
  | .cloned | .locked _ | .unlocked => True
  | _ => False

def Await.Touches (path : String) : Await → Prop
  | .written file _ _ | .rejected file => file = path
  | _ => False

namespace State

def Attaching (s : State) : Prop := ∃ h, s.handler = some h ∧ h.await.Attaches
def Cloning (s : State) : Prop := ∃ h, s.handler = some h ∧ h.await.Clones
def Touching (s : State) (path : String) : Prop := ∃ h, s.handler = some h ∧ h.await.Touches path
def HasUpload (s : State) (path : String) : Prop := ∃ u ∈ s.uploads, u.path = path

end State

/-- The removal of the close event, at each of its stages. -/
def Stage.Reached (s : State) : Stage → Prop
  | .clone => True
  | .watchers => s.cloneSession = false ∧ s.watching = []
  | .upload path stamp => s.cloneSession = false ∧ s.watching = [] ∧
      ∀ u ∈ s.uploads, (u.stamp < stamp → u.path ∉ s.partials) ∧ (u.stamp = stamp → u.path = path)

structure Clean (s : State) : Prop where
  live : s.live = []
  clone : s.clone = false
  watching : s.watching = []
  uploads : s.uploads = []
  partials : s.partials = []

/-- Everything open is known to the connection, or to the handler that is opening it. -/
structure Tracked (s : State) : Prop where
  live : ∀ bridge ∈ s.live, s.pty = some bridge
  attaching : s.Attaching → s.pty = none
  clone : s.clone = true → s.cloneSession = true ∨ s.Cloning
  watching : ∀ w ∈ s.watching, ∃ path, s.watchers.get path = some w
  partials : ∀ path ∈ s.partials, s.HasUpload path ∨ s.Touching path
  whole : ∀ path size, s.handler = some ⟨.written path size true, some .done⟩ → path ∉ s.partials
  sorted : s.uploads.Pairwise fun u v => u.stamp < v.stamp
  stamped : ∀ u ∈ s.uploads, 0 < u.stamp ∧ u.stamp < s.stamps
  stamps : 0 < s.stamps
  begun : s.begun = true → s.handler = none ∧ s.queue = [] ∧ s.closing = true ∧ s.pty = none
  own : ∀ r ∈ s.removals, r.own = true → s.begun = true ∧ r.stage.Reached s
  finished : s.finished = true → s.begun = true ∧ s.cloneSession = false ∧ s.watching = [] ∧ s.uploads = [] ∧ s.partials = []

theorem Tracked.clean {s : State} (h : Tracked s) (hfinished : s.finished = true) : Clean s := by
  obtain ⟨hbegun, hclone, hwatching, huploads, hpartials⟩ := h.finished hfinished
  obtain ⟨hidle, -, -, hpty⟩ := h.begun hbegun
  refine ⟨?_, ?_, hwatching, huploads, hpartials⟩
  · refine eq_nil_iff_forall_not_mem.2 fun bridge hlive => ?_
    have hsome := h.live bridge hlive
    rw [hpty] at hsome
    cases hsome
  · refine Bool.eq_false_iff.2 fun hthere => ?_
    cases h.clone hthere with
    | inl hkept =>
      rw [hclone] at hkept
      cases hkept
    | inr hmaking =>
      obtain ⟨handler, hrunning, -⟩ := hmaking
      rw [hidle] at hrunning
      cases hrunning

theorem tracked_start (readOnly : Bool) : Tracked (.start readOnly) where
  live := fun _ h => by cases h
  attaching := fun _ => rfl
  clone := fun h => by cases h
  watching := fun _ h => by cases h
  partials := fun _ h => by cases h
  whole := fun _ _ h => by cases h
  sorted := .nil
  stamped := fun _ h => by cases h
  stamps := Nat.one_pos
  begun := fun h => by cases h
  own := fun _ h => by cases h
  finished := fun h => by cases h

/-! ### What may not be forgotten -/

/-- A call that ends a clone or removes a file comes back only when that is gone, a chunk that fails leaves no part of
which the connection does not know, and a session that is not made is not there. -/
def Handler.Leaves (s : State) : Handler → Prop
  | ⟨.dropped .., _⟩ | ⟨.unlocked, _⟩ | ⟨.unspawned, _⟩ | ⟨.detached, _⟩ => s.clone = false
  | ⟨.cloned, some x⟩ => x = .done ∨ s.clone = false
  | ⟨.rejected path, _⟩ => path ∉ s.partials
  | ⟨.written path _ _, some x⟩ => x = .done ∨ (path ∈ s.partials → s.HasUpload path)
  | _ => True

/-- A removal that is not the close event's forgets nothing that has come while it waited. -/
def Removal.Leaves (s : State) (r : Removal) : Prop :=
  match r.stage with
  | .clone => s.cloneSession = true → s.clone = false
  | .watchers => r.own = true ∨ ∀ w ∈ s.watchers.values, w ∉ s.watching
  | .upload path stamp => if r.own then path ∉ s.partials
      else (∀ u ∈ s.uploads, u.stamp ≤ stamp) → ∀ u ∈ s.uploads, u.path ∈ s.partials → s.Touching u.path

def KeepsTrack (s : State) : Event → Prop
  | .resume => ∀ h, s.handler = some h → h.Leaves s
  | .resumeRemoval n => ∀ r, s.removals[n]? = some r → r.Leaves s
  | _ => True

/-! ### Handlers -/

/-- While handlers may run, the close event has not come to its removal. -/
structure Open (s : State) : Prop where
  live : ∀ bridge ∈ s.live, s.pty = some bridge
  watching : ∀ w ∈ s.watching, ∃ path, s.watchers.get path = some w
  sorted : s.uploads.Pairwise fun u v => u.stamp < v.stamp
  stamped : ∀ u ∈ s.uploads, 0 < u.stamp ∧ u.stamp < s.stamps
  stamps : 0 < s.stamps
  begun : s.begun = false
  own : ∀ r ∈ s.removals, r.own = false
  finished : s.finished = false

/-- The connection itself knows of its clone and its uploads. -/
structure Free (s : State) : Prop extends Open s where
  clone : s.clone = true → s.cloneSession = true
  partials : ∀ path ∈ s.partials, s.HasUpload path

variable {s : State}

theorem Tracked.opens (h : Tracked s) (hbegun : s.begun = false) : Open s where
  __ := h
  begun := hbegun
  own := by
    intro r hr
    refine Bool.eq_false_iff.2 fun hown => ?_
    rw [(h.own r hr hown).1] at hbegun
    cases hbegun
  finished := by
    refine Bool.eq_false_iff.2 fun hfinished => ?_
    rw [(h.finished hfinished).1] at hbegun
    cases hbegun

theorem Tracked.running {handler : Handler} (h : Tracked s) (hrunning : s.handler = some handler) : Open s := by
  refine h.opens (Bool.eq_false_iff.2 fun hbegun => ?_)
  rw [(h.begun hbegun).1] at hrunning
  cases hrunning

theorem Tracked.free (h : Tracked s) (hopen : Open s) (hclone : ¬ s.Cloning)
    (htouching : ∀ path, ¬ s.Touching path) : Free s where
  toOpen := hopen
  clone hthere := (h.clone hthere).resolve_right hclone
  partials path hpath := (h.partials path hpath).resolve_right (htouching path)

section Handlers
variable {s : State}

theorem Open.handled {handler : Handler} (h : Open s) (hpty : handler.await.Attaches → s.pty = none)
    (hclone : s.clone = true → s.cloneSession = true ∨ handler.await.Clones)
    (hpartials : ∀ path ∈ s.partials, s.HasUpload path ∨ handler.await.Touches path)
    (hwhole : ∀ path size, handler = ⟨.written path size true, some .done⟩ → path ∉ s.partials) :
    Tracked { s with handler := some handler } where
  __ := h
  attaching := by
    rintro ⟨other, hrunning, hattaches⟩
    cases hrunning
    exact hpty hattaches
  clone hthere := by
    cases hclone hthere with
    | inl hkept => exact .inl hkept
    | inr hclones => exact .inr ⟨_, rfl, hclones⟩
  partials path hpath := by
    cases hpartials path hpath with
    | inl hknown => exact .inl hknown
    | inr htouches => exact .inr ⟨_, rfl, htouches⟩
  whole path size hrunning := hwhole path size (Option.some.inj hrunning)
  begun hbegun := by
    have hnot : s.begun = true := hbegun
    rw [h.begun] at hnot
    cases hnot
  own r hr hown := by
    rw [h.own r hr] at hown
    cases hown
  finished hfinished := by
    have hnot : s.finished = true := hfinished
    rw [h.finished] at hnot
    cases hnot

variable {await : Await}

theorem Open.wait (h : Open s) (hpty : await.Attaches → s.pty = none)
    (hclone : s.clone = true → s.cloneSession = true ∨ await.Clones)
    (hpartials : ∀ path ∈ s.partials, s.HasUpload path ∨ await.Touches path) : Tracked (s.wait await) :=
  h.handled hpty hclone hpartials fun _ _ hsame => by cases hsame

theorem Free.wait (h : Free s) (hpty : await.Attaches → s.pty = none) : Tracked (s.wait await) :=
  h.toOpen.wait hpty (fun hthere => .inl (h.clone hthere)) fun path hpath => .inl (h.partials path hpath)

theorem Free.done (h : Free s) : Tracked s.done where
  __ := h
  attaching := by
    rintro ⟨handler, hrunning, -⟩
    cases hrunning
  clone hthere := .inl (h.clone hthere)
  partials path hpath := .inl (h.partials path hpath)
  whole := fun _ _ hrunning => by cases hrunning
  begun hbegun := by
    have hnot : s.begun = true := hbegun
    rw [h.begun] at hnot
    cases hnot
  own r hr hown := by
    rw [h.own r hr] at hown
    cases hown
  finished hfinished := by
    have hnot : s.finished = true := hfinished
    rw [h.finished] at hnot
    cases hnot

theorem dropPty_pty (s : State) : s.dropPty.pty = none := by
  unfold State.dropPty
  split
  · assumption
  · rfl

theorem dropPty_live (h : ∀ bridge ∈ s.live, s.pty = some bridge) : s.dropPty.live = [] := by
  unfold State.dropPty
  split
  · rename_i hnone
    refine eq_nil_iff_forall_not_mem.2 fun bridge hlive => ?_
    have hsome := h bridge hlive
    rw [hnone] at hsome
    cases hsome
  · rename_i bridge hpty
    refine filter_eq_nil_iff.2 fun other hlive => ?_
    have hsame := h other hlive
    rw [hpty] at hsame
    cases hsame
    simp

theorem dropPty_rest (s : State) : ∃ pty live, s.dropPty = { s with pty := pty, live := live } := by
  unfold State.dropPty
  split
  · exact ⟨s.pty, s.live, rfl⟩
  · exact ⟨_, _, rfl⟩

section
variable (h : Free s)
include h

theorem Free.dropPty : Free s.dropPty := by
  have hlive := dropPty_live h.live
  obtain ⟨pty, live, hs⟩ := dropPty_rest s
  rw [hs] at hlive ⊢
  have hnone : live = [] := hlive
  subst hnone
  exact { h with live := fun _ hmem => (by cases hmem) }

theorem Free.spawnPty (hpty : s.pty = none) : Tracked (s.spawnPty host) := by
  have hlive : s.live = [] := by
    refine eq_nil_iff_forall_not_mem.2 fun bridge hlive => ?_
    have hsome := h.live bridge hlive
    rw [hpty] at hsome
    cases hsome
  have hspawned : Free { s with spawned := s.spawned + 1 } :=
    { h with }
  unfold State.spawnPty
  split
  · split
    · exact hspawned.wait fun hattaches => hattaches.elim
    · exact hspawned.done
  · refine Free.done { h with live := ?_ }
    intro bridge hbridge
    change bridge ∈ s.spawned :: s.live at hbridge
    rw [hlive] at hbridge
    cases mem_singleton.1 hbridge
    rfl

theorem Free.openView (hpty : s.pty = none) : Tracked (s.openView host) := by
  unfold State.openView
  split
  · exact h.wait fun _ => hpty
  · exact h.spawnPty hpty

theorem Free.findTarget (hpty : s.pty = none) (target : String) (capture : Bool) :
    Tracked (s.findTarget target capture) := by
  unfold State.findTarget
  split
  · exact h.done
  · exact h.wait fun _ => hpty

theorem Free.attach (target : String) (capture : Bool) : Tracked (s.attach target capture) := by
  unfold State.attach
  split
  · exact h.dropPty.wait fun _ => dropPty_pty s
  · exact h.dropPty.findTarget (dropPty_pty s) target capture

theorem Free.detach : Tracked s.detach := by
  unfold State.detach
  split
  · exact h.dropPty.wait fun hattaches => hattaches.elim
  · exact h.dropPty.done

theorem Free.watch (path : String) : Tracked (s.watch host path) := by
  unfold State.watch
  split
  · exact h.done
  · rename_i hnew
    split
    · exact h.done
    · refine Free.done { h with watching := ?_ }
      intro w hw
      cases mem_cons.1 hw with
      | inl hthis =>
        subst hthis
        exact ⟨path, by rw [get_set, if_pos rfl]⟩
      | inr hold =>
        obtain ⟨other, hother⟩ := h.watching w hold
        refine ⟨other, ?_⟩
        rw [get_set, if_neg]
        · exact hother
        · rintro rfl
          simp [OrderedMap.has, hother] at hnew

theorem Free.unwatch (path : String) : Tracked (s.unwatch path) := by
  unfold State.unwatch
  split
  · exact h.done
  · rename_i watcher hget
    refine Free.done { h with watching := ?_ }
    intro w hw
    obtain ⟨hopen, hother⟩ := mem_filter.1 hw
    obtain ⟨other, hkept⟩ := h.watching w hopen
    refine ⟨other, ?_⟩
    rw [get_delete, if_neg]
    · exact hkept
    · rintro rfl
      rw [hget] at hkept
      cases hkept
      simp at hother

end

/-! ### Uploads -/

theorem hasUpload_forget {path other : String} (h : s.HasUpload other) (hother : other ≠ path) :
    (s.forgetUpload path).HasUpload other := by
  obtain ⟨u, hu, hpath⟩ := h
  exact ⟨u, mem_filter.2 ⟨hu, by simpa [hpath] using hother⟩, hpath⟩

theorem Open.forgetUpload (h : Open s) (path : String) : Open (s.forgetUpload path) :=
  { h with sorted := h.sorted.filter _, stamped := fun u hu => h.stamped u (mem_filter.1 hu).1 }

theorem hasUpload_set (path : String) (size : Nat) {other : String} (h : other = path ∨ s.HasUpload other) :
    (s.setUpload path size).HasUpload other := by
  unfold State.setUpload
  split
  · rename_i hany
    have hthere : s.HasUpload other := by
      cases h with
      | inl hthis =>
        obtain ⟨u, hu, hpath⟩ := any_eq_true.1 hany
        exact ⟨u, hu, by rw [hthis]; simpa using hpath⟩
      | inr hother => exact hother
    obtain ⟨u, hu, hpath⟩ := hthere
    refine ⟨_, mem_map.2 ⟨u, hu, rfl⟩, ?_⟩
    split
    · exact hpath
    · exact hpath
  · cases h with
    | inl hthis => exact ⟨_, mem_append_right _ mem_cons_self, hthis.symm⟩
    | inr hother =>
      obtain ⟨u, hu, hpath⟩ := hother
      exact ⟨u, mem_append_left _ hu, hpath⟩

theorem setUpload_rest (s : State) (path : String) (size : Nat) :
    ∃ uploads stamps, s.setUpload path size = { s with uploads := uploads, stamps := stamps } := by
  unfold State.setUpload
  split
  · exact ⟨_, s.stamps, rfl⟩
  · exact ⟨_, _, rfl⟩

theorem Open.setUpload (h : Open s) (path : String) (size : Nat) : Open (s.setUpload path size) := by
  unfold State.setUpload
  split
  · refine { h with sorted := ?_, stamped := ?_ }
    · refine pairwise_map.2 (h.sorted.imp fun {u v} hlt => ?_)
      have hstamp : ∀ u : Upload, (if u.path = path then { u with size := size } else u).stamp = u.stamp := by
        intro u
        split
        · rfl
        · rfl
      rw [hstamp u, hstamp v]
      exact hlt
    · intro u hu
      obtain ⟨v, hv, hvu⟩ := mem_map.1 hu
      rw [← hvu]
      split
      · exact h.stamped v hv
      · exact h.stamped v hv
  · refine { h with sorted := ?_, stamped := ?_, stamps := Nat.succ_pos _ }
    · refine pairwise_append.2 ⟨h.sorted, pairwise_singleton _ _, fun u hu v hv => ?_⟩
      cases mem_singleton.1 hv
      exact (h.stamped u hu).2
    · intro u hu
      change 0 < u.stamp ∧ u.stamp < s.stamps + 1
      have hstamps := h.stamps
      cases mem_append.1 hu with
      | inl hold =>
        have hbounds := h.stamped u hold
        omega
      | inr hnew =>
        cases mem_singleton.1 hnew
        exact ⟨hstamps, Nat.lt_succ_self _⟩

theorem Free.upload (h : Free s) (path : String) (bytes : Nat) (final : Bool) :
    Tracked (s.upload host resolve path bytes final) := by
  unfold State.upload
  split
  · exact h.done
  · dsimp only
    split
    · refine (h.toOpen.forgetUpload (resolve path)).wait (fun hattaches => hattaches.elim)
        (fun hthere => .inl (h.clone hthere)) fun other hother => ?_
      by_cases hthis : other = resolve path
      · exact .inr hthis.symm
      · exact .inl (hasUpload_forget (h.partials other hother) hthis)
    · exact h.wait fun hattaches => hattaches.elim

theorem Free.handle (h : Free s) (msg : Message) : Tracked (s.handle host resolve msg) := by
  cases msg with
  | attach target capture => exact h.attach target capture
  | detach => exact h.detach
  | watch path => exact h.watch path
  | unwatch path => exact h.unwatch path
  | upload path bytes final => exact h.upload path bytes final
  | other awaits =>
    simp only [State.handle]
    split
    · exact h.done
    · exact h.wait fun hattaches => hattaches.elim

/-- A handler whose call did what it was for lets go of nothing that is open. -/
theorem Tracked.goOn {x : Outcome} (h : Tracked s) (hrunning : s.handler = some ⟨await, some x⟩)
    (hleaves : (⟨await, some x⟩ : Handler).Leaves s) : Tracked (s.goOn host await x) := by
  have hopen := h.running hrunning
  have hattaching : await.Attaches → s.pty = none := fun hattaches => h.attaching ⟨_, hrunning, hattaches⟩
  have hcloning : s.clone = true → s.cloneSession = true ∨ await.Clones := by
    intro hthere
    refine (h.clone hthere).imp_right fun hclones => ?_
    obtain ⟨handler, hsame, hmakes⟩ := hclones
    cases hrunning.symm.trans hsame
    exact hmakes
  have htouching : ∀ path ∈ s.partials, s.HasUpload path ∨ await.Touches path := by
    intro path hpath
    refine (h.partials path hpath).imp_right fun htouches => ?_
    obtain ⟨handler, hsame, hmakes⟩ := htouches
    cases hrunning.symm.trans hsame
    exact hmakes
  have hfree : (s.clone = true → ¬ await.Clones) → (∀ path ∈ s.partials, ¬ await.Touches path) → Free s :=
    fun hno hnone => ⟨hopen, fun hthere => (hcloning hthere).resolve_right (hno hthere),
      fun path hpath => (htouching path hpath).resolve_right (hnone path hpath)⟩
  have hgone : ∀ set, s.clone = false → (∀ path, ¬ await.Touches path) → Free { s with cloneSession := set } := by
    intro set hclone hnone
    refine { hopen with clone := ?_, partials := ?_ }
    · intro hthere
      have hnot : s.clone = true := hthere
      rw [hclone] at hnot
      cases hnot
    · exact fun path hpath => (htouching path hpath).resolve_right (hnone path)
  cases await with
  | dropped target capture =>
    exact (hgone false hleaves fun _ htouches => htouches).findTarget (hattaching trivial) target capture
  | found capture =>
    have hs := hfree (fun _ hclones => hclones) fun _ _ htouches => htouches
    cases x with
    | done =>
      simp only [State.goOn]
      split
      · exact hs.wait fun _ => hattaching trivial
      · exact hs.openView (hattaching trivial)
    | failed | halfway => exact hs.done
  | captured => exact (hfree (fun _ hclones => hclones) fun _ _ htouches => htouches).openView (hattaching trivial)
  | cloned =>
    have hnone : x ≠ .done → Tracked s.done := by
      intro hx
      refine (hfree (fun hthere => ?_) fun _ _ htouches => htouches).done
      rw [hleaves.resolve_left hx] at hthere
      cases hthere
    cases x with
    | done =>
      refine hopen.wait (fun _ => hattaching trivial) (fun _ => .inr ?_)
        fun path hpath => .inl ((htouching path hpath).resolve_right fun htouches => htouches)
      trivial
    | failed | halfway => exact hnone (by decide)
  | locked left =>
    have hwait : ∀ await : Await, await.Clones → Tracked (s.wait await) := fun await hclones =>
      hopen.wait (fun _ => hattaching trivial) (fun _ => .inr hclones)
        fun path hpath => .inl ((htouching path hpath).resolve_right fun htouches => htouches)
    cases x with
    | done =>
      cases left with
      | zero =>
        refine Free.spawnPty (s := { s with cloneSession := true })
          { hopen with clone := fun _ => rfl, partials := ?_ } (hattaching trivial)
        exact fun path hpath => (htouching path hpath).resolve_right fun htouches => htouches
      | succ left => exact hwait _ trivial
    | failed | halfway => cases left <;> exact hwait _ trivial
  | unlocked => exact (hgone s.cloneSession hleaves fun _ htouches => htouches).done
  | unspawned | detached => exact (hgone false hleaves fun _ htouches => htouches).done
  | rejected path =>
    refine (hfree (fun _ hclones => hclones) fun other hother htouches => ?_).done
    cases htouches
    exact hleaves hother
  | written path size final =>
    have hclone : s.clone = true → s.cloneSession = true := fun hthere =>
      (hcloning hthere).resolve_right fun hclones => hclones
    have hknown : x ≠ .done → Tracked s.done := by
      intro hx
      refine Free.done ⟨hopen, hclone, fun other hother => ?_⟩
      cases htouching other hother with
      | inl hhas => exact hhas
      | inr hthis =>
        cases hthis
        exact hleaves.resolve_left hx hother
    cases x with
    | done =>
      cases final with
      | true =>
        refine Free.done ⟨hopen.forgetUpload path, hclone, fun other hother => ?_⟩
        have hother : other ∈ s.partials := hother
        have hne : other ≠ path := by
          rintro rfl
          exact h.whole other size hrunning hother
        exact hasUpload_forget ((htouching other hother).resolve_right (Ne.symm hne)) hne
      | false =>
        obtain ⟨uploads, stamps, hs⟩ := setUpload_rest s path size
        have hknows : ∀ other ∈ s.partials, (s.setUpload path size).HasUpload other := fun other hother =>
          hasUpload_set path size ((htouching other hother).symm.imp_left Eq.symm)
        have hset := hopen.setUpload path size
        change Tracked (s.setUpload path size).done
        rw [hs] at hset hknows ⊢
        exact Free.done ⟨hset, hclone, hknows⟩
    | failed | halfway => exact hknown (by decide)
  | other left =>
    have hs := hfree (fun _ hclones => hclones) fun _ _ htouches => htouches
    cases left with
    | zero => exact hs.done
    | succ left => exact hs.wait fun hattaches => hattaches.elim

/-- What a call does is in its handler's hands. -/
def Carried (s : State) (await : Await) (x : Outcome) (t : State) : Prop :=
  ∃ clone partials, t = { s with clone := clone, partials := partials } ∧
    (clone = true → s.clone = true ∨ await.Clones) ∧ (∀ path ∈ partials, path ∈ s.partials ∨ await.Touches path) ∧
    ∀ path size, await = .written path size true → x = .done → path ∉ partials

theorem carry_rest (s : State) (x : Outcome) (await : Await) : Carried s await x (s.carry x await) := by
  have hsame : ∀ await : Await, (∀ path size, await ≠ .written path size true) → Carried s await x s :=
    fun await hnot => ⟨s.clone, s.partials, rfl, .inl, fun _ hp => .inl hp, fun path size h => absurd h (hnot path size)⟩
  have hend : ∀ await : Await, (∀ path size, await ≠ .written path size true) → Carried s await x (s.endClone x) := by
    intro await hnot
    unfold State.endClone
    split
    · exact ⟨false, s.partials, rfl, fun h => (by cases h), fun _ hp => .inl hp, fun path size h => absurd h (hnot path size)⟩
    · exact hsame await hnot
  cases await with
  | dropped _ _ | unlocked | unspawned | detached => exact hend _ fun _ _ h => by cases h
  | cloned =>
    simp only [State.carry]
    split
    · exact ⟨s.clone, s.partials, rfl, .inl, fun _ hp => .inl hp, fun _ _ h => by cases h⟩
    · exact ⟨true, s.partials, rfl, fun _ => .inr trivial, fun _ hp => .inl hp, fun _ _ h => by cases h⟩
  | rejected path =>
    simp only [State.carry]
    unfold State.removeFile
    split
    · exact ⟨s.clone, _, rfl, .inl, fun _ hp => .inl (mem_filter.1 hp).1, fun _ _ h => by cases h⟩
    · exact ⟨s.clone, s.partials, rfl, .inl, fun _ hp => .inl hp, fun _ _ h => by cases h⟩
  | written path size final =>
    simp only [State.carry]
    split
    · rename_i hfailed
      subst hfailed
      exact ⟨s.clone, s.partials, rfl, .inl, fun _ hp => .inl hp, fun _ _ _ hx => by cases hx⟩
    · split
      · refine ⟨s.clone, s.partials.filter (· ≠ path), rfl, .inl, fun _ hp => .inl (mem_filter.1 hp).1, ?_⟩
        intro other size' hother _ hmem
        cases hother
        simpa using (mem_filter.1 hmem).2
      · rename_i hnot
        refine ⟨s.clone, path :: s.partials, rfl, .inl, fun other hmem => ?_, fun other size' hother hx => ?_⟩
        · exact (mem_cons.1 hmem).symm.imp_right Eq.symm
        · cases hother
          exact absurd ⟨rfl, hx⟩ hnot
  | _ => exact hsame _ fun _ _ h => by cases h

theorem Tracked.carry (h : Tracked s) (hrunning : s.handler = some ⟨await, none⟩) (x : Outcome) :
    Tracked { s.carry x await with handler := some ⟨await, some x⟩ } := by
  have hopen := h.running hrunning
  obtain ⟨clone, partials, hs, hclone, hpartials, hwhole⟩ := carry_rest s x await
  rw [hs]
  refine Open.handled (s := { s with clone := clone, partials := partials })
    { hopen with } ?_ ?_ ?_ ?_
  · exact fun hattaches => h.attaching ⟨_, hrunning, hattaches⟩
  · intro hthere
    cases hclone hthere with
    | inl hold =>
      refine (h.clone hold).imp_right fun hclones => ?_
      obtain ⟨handler, hsame, hmakes⟩ := hclones
      cases hrunning.symm.trans hsame
      exact hmakes
    | inr hmakes => exact .inr hmakes
  · intro path hpath
    cases hpartials path hpath with
    | inl hold =>
      refine (h.partials path hold).imp_right fun htouches => ?_
      obtain ⟨handler, hsame, hmakes⟩ := htouches
      cases hrunning.symm.trans hsame
      exact hmakes
    | inr htouches => exact .inr htouches
  · intro path size hsame
    cases hsame
    exact hwhole path size rfl rfl

end Handlers

/-! ### Closing -/

section Closing
variable {s : State}

theorem Stage.Reached.same {stage : Stage} {t : State} (h : stage.Reached s) (hclone : t.cloneSession = s.cloneSession)
    (hwatching : t.watching = s.watching) (huploads : t.uploads = s.uploads) (hpartials : t.partials = s.partials) :
    stage.Reached t := by
  cases stage with
  | clone => trivial
  | watchers => exact ⟨hclone.trans h.1, hwatching.trans h.2⟩
  | upload path stamp =>
    refine ⟨hclone.trans h.1, hwatching.trans h.2.1, ?_⟩
    rw [huploads, hpartials]
    exact h.2.2

theorem Stage.Reached.less {stage : Stage} {watching : List Nat} {partials : List String} {pty : Option Nat}
    {live : List Nat} {clone : Bool} (h : stage.Reached s) (hwatching : watching ⊆ s.watching)
    (hpartials : partials ⊆ s.partials) :
    stage.Reached { s with pty := pty, live := live, clone := clone, watching := watching, partials := partials } := by
  cases stage with
  | clone => trivial
  | watchers => exact ⟨h.1, subset_nil.1 (h.2 ▸ hwatching)⟩
  | upload path stamp =>
    obtain ⟨hclone, hnone, huploads⟩ := h
    exact ⟨hclone, subset_nil.1 (hnone ▸ hwatching),
      fun u hu => ⟨fun hlt hmem => (huploads u hu).1 hlt (hpartials hmem), (huploads u hu).2⟩⟩

/-- What is closed, nobody has to know of. -/
theorem Tracked.less (h : Tracked s) {watching : List Nat} {partials : List String} {pty : Option Nat}
    {live : List Nat} {clone : Bool} (hlive : ∀ bridge ∈ live, pty = some bridge) (hpty : s.pty = none → pty = none)
    (hclone : clone = true → s.clone = true) (hwatching : watching ⊆ s.watching) (hpartials : partials ⊆ s.partials) :
    Tracked { s with pty := pty, live := live, clone := clone, watching := watching, partials := partials } where
  live := hlive
  attaching hattaching := hpty (h.attaching hattaching)
  clone hthere := h.clone (hclone hthere)
  watching w hw := h.watching w (hwatching hw)
  partials path hpath := h.partials path (hpartials hpath)
  whole path size hrunning hmem := h.whole path size hrunning (hpartials hmem)
  __ := h
  begun hbegun := by
    obtain ⟨hidle, hqueue, hclosing, hnone⟩ := h.begun hbegun
    exact ⟨hidle, hqueue, hclosing, hpty hnone⟩
  own r hr hown := by
    obtain ⟨hbegun, hreached⟩ := h.own r hr hown
    exact ⟨hbegun, hreached.less hwatching hpartials⟩
  finished hfinished := by
    obtain ⟨hbegun, hsession, hnone, huploads, hempty⟩ := h.finished hfinished
    exact ⟨hbegun, hsession, subset_nil.1 (hnone ▸ hwatching), huploads, subset_nil.1 (hempty ▸ hpartials)⟩

theorem Tracked.dropPty (h : Tracked s) : Tracked s.dropPty := by
  have hlive := dropPty_live h.live
  have hpty := dropPty_pty s
  obtain ⟨pty, live, hs⟩ := dropPty_rest s
  rw [hs] at hlive hpty ⊢
  have hnone : live = [] := hlive
  subst hnone
  exact h.less (fun _ hmem => by cases hmem) (fun _ => hpty) id (List.Subset.refl _) (List.Subset.refl _)

theorem carryRemoving_rest (s : State) (x : Outcome) (stage : Stage) : ∃ clone partials,
    s.carryRemoving x stage = { s with clone := clone, partials := partials } ∧ (clone = true → s.clone = true) ∧
      partials ⊆ s.partials := by
  cases stage with
  | clone =>
    simp only [State.carryRemoving]
    unfold State.endClone
    split
    · exact ⟨false, s.partials, rfl, fun h => (by cases h), List.Subset.refl _⟩
    · exact ⟨s.clone, s.partials, rfl, id, List.Subset.refl _⟩
  | watchers => exact ⟨s.clone, s.partials, rfl, id, List.Subset.refl _⟩
  | upload path stamp =>
    simp only [State.carryRemoving]
    unfold State.removeFile
    split
    · exact ⟨s.clone, _, rfl, id, filter_sublist.subset⟩
    · exact ⟨s.clone, s.partials, rfl, id, List.Subset.refl _⟩

/-- A removal that stands in the list may stand where it has come to. -/
theorem Tracked.listed (h : Tracked s) {removals : List Removal}
    (hremovals : ∀ r ∈ removals, r ∈ s.removals ∨ (r.own = true → s.begun = true ∧ r.stage.Reached s)) :
    Tracked { s with removals := removals } where
  __ := h
  own r hr hown := by
    have hreached : s.begun = true ∧ r.stage.Reached s := by
      cases hremovals r hr with
      | inl hold => exact h.own r hold hown
      | inr hnew => exact hnew hown
    exact ⟨hreached.1, hreached.2.same rfl rfl rfl rfl⟩

theorem closeWatchers_watching (h : Tracked s) : s.closeWatchers.1.watching = [] := by
  refine filter_eq_nil_iff.2 fun w hw => ?_
  obtain ⟨path, hget⟩ := h.watching w hw
  have hmem : w ∈ s.watchers.values := mem_map.2 ⟨(path, w), (s.watchers.get_eq_some path w).1 hget, rfl⟩
  simpa using hmem

theorem Tracked.closeWatchers (h : Tracked s) : Tracked s.closeWatchers.1 :=
  h.less (s := s) h.live id id (filter_sublist.subset) (List.Subset.refl _)

/-! ### Removals -/

theorem Tracked.forgetClone (h : Tracked s) (hleaves : s.cloneSession = true → s.clone = false) :
    Tracked { s with cloneSession := false } where
  __ := h
  clone hthere := by
    cases h.clone hthere with
    | inl hkept =>
      rw [hleaves hkept] at hthere
      cases hthere
    | inr hclones => exact .inr hclones
  own r hr hown := by
    obtain ⟨hbegun, hreached⟩ := h.own r hr hown
    refine ⟨hbegun, ?_⟩
    cases hstage : r.stage with
    | clone => trivial
    | watchers =>
      rw [hstage] at hreached
      exact ⟨rfl, hreached.2⟩
    | upload path stamp =>
      rw [hstage] at hreached
      exact ⟨rfl, hreached.2⟩
  finished hfinished := by
    obtain ⟨hbegun, -, hrest⟩ := h.finished hfinished
    exact ⟨hbegun, rfl, hrest⟩

theorem Tracked.forgetWatchers (h : Tracked s) (hclosed : s.watching = []) : Tracked { s with watchers := .empty } where
  __ := h
  watching w hw := by
    have hmem : w ∈ s.watching := hw
    rw [hclosed] at hmem
    cases hmem
  own r hr hown := by
    obtain ⟨hbegun, hreached⟩ := h.own r hr hown
    exact ⟨hbegun, hreached.same rfl rfl rfl rfl⟩

/-- The end of a removal: all that has a part of a file is being written. -/
theorem Tracked.forgetUploads (h : Tracked s) (hwritten : ∀ path ∈ s.partials, s.Touching path) {own : Bool}
    (hown : own = true → s.begun = true ∧ s.cloneSession = false ∧ s.watching = [] ∧ s.partials = []) :
    Tracked { s with uploads := [], inTable := false, finished := s.finished || own } where
  __ := h
  partials path hpath := .inr (hwritten path hpath)
  sorted := .nil
  stamped := fun _ hu => by cases hu
  own r hr hr' := by
    obtain ⟨hbegun, hreached⟩ := h.own r hr hr'
    refine ⟨hbegun, ?_⟩
    cases hstage : r.stage with
    | clone => trivial
    | watchers =>
      rw [hstage] at hreached
      exact hreached
    | upload path stamp =>
      rw [hstage] at hreached
      exact ⟨hreached.1, hreached.2.1, fun _ hu => by cases hu⟩
  finished hfinished := by
    have hor : (s.finished || own) = true := hfinished
    cases Bool.or_eq_true_iff.1 hor with
    | inl hold =>
      obtain ⟨hbegun, hclone, hwatching, -, hpartials⟩ := h.finished hold
      exact ⟨hbegun, hclone, hwatching, rfl, hpartials⟩
    | inr hnew =>
      obtain ⟨hbegun, hclone, hwatching, hpartials⟩ := hown hnew
      exact ⟨hbegun, hclone, hwatching, rfl, hpartials⟩

/-- After the entry that the removal of the close event has come to, no file is left of those before. -/
def Swept (s : State) (stamp : Nat) : Prop :=
  s.begun = true ∧ s.cloneSession = false ∧ s.watching = [] ∧ ∀ u ∈ s.uploads, u.stamp ≤ stamp → u.path ∉ s.partials

theorem next_upload {stamp : Nat} {u : Upload} (hsorted : s.uploads.Pairwise fun u v => u.stamp < v.stamp)
    (hfind : (s.uploads.find? fun u => stamp < u.stamp) = some u) :
    ∀ v ∈ s.uploads, (v.stamp < u.stamp → v.stamp ≤ stamp) ∧ (v.stamp = u.stamp → v.path = u.path) := by
  obtain ⟨-, before, after, hsplit, hbefore⟩ := List.find?_eq_some_iff_append.1 hfind
  rw [hsplit] at hsorted ⊢
  obtain ⟨-, htail, hlater⟩ := pairwise_append.1 hsorted
  have hafter := (pairwise_cons.1 htail).1
  intro v hv
  cases mem_append.1 hv with
  | inl hearlier =>
    have hno := hbefore v hearlier
    have hlt := hlater v hearlier u mem_cons_self
    simp only [Bool.not_eq_true', decide_eq_false_iff_not] at hno
    exact ⟨fun _ => by omega, fun heq => by omega⟩
  | inr hrest =>
    cases mem_cons.1 hrest with
    | inl hthis => exact ⟨fun hlt => by rw [hthis] at hlt; omega, fun _ => by rw [hthis]⟩
    | inr hlast =>
      have hlt := hafter v hlast
      exact ⟨fun hless => by omega, fun heq => by omega⟩

/-- A removal waits on, or it is over. -/
def State.goneOn (n : Nat) (own : Bool) : State × Option Stage → State
  | (s, some stage) => { s with removals := s.removals.set n ⟨own, stage, false⟩ }
  | (s, none) => { s with removals := s.removals.eraseIdx n, finished := s.finished || own }

theorem Tracked.cleanupUploads (h : Tracked s) {stamp : Nat} {own : Bool} (n : Nat) (hown : own = true → Swept s stamp)
    (hother : own = false → (∀ u ∈ s.uploads, u.stamp ≤ stamp) → ∀ u ∈ s.uploads, u.path ∈ s.partials →
      s.Touching u.path) : Tracked (State.goneOn n own (s.cleanupUploads stamp)) := by
  unfold State.cleanupUploads
  split
  · rename_i u hfind
    refine h.listed fun r hr => ?_
    cases mem_or_eq_of_mem_set hr with
    | inl hold => exact .inl hold
    | inr hnew =>
      subst hnew
      refine .inr fun hthis => ?_
      obtain ⟨hbegun, hclone, hwatching, hswept⟩ := hown hthis
      have hnext := next_upload h.sorted hfind
      exact ⟨hbegun, hclone, hwatching, fun v hv => ⟨fun hlt => hswept v hv ((hnext v hv).1 hlt), (hnext v hv).2⟩⟩
  · rename_i hnone
    have hall : ∀ u ∈ s.uploads, u.stamp ≤ stamp := by
      intro u hu
      have hno := List.find?_eq_none.1 hnone u hu
      simpa using hno
    have hwritten : ∀ path ∈ s.partials, s.Touching path := by
      intro path hpath
      cases h.partials path hpath with
      | inr htouching => exact htouching
      | inl hhas =>
        obtain ⟨u, hu, hsame⟩ := hhas
        subst hsame
        cases own with
        | true => exact absurd hpath ((hown rfl).2.2.2 u hu (hall u hu))
        | false => exact hother rfl hall u hu hpath
    have hdone : Tracked { s with uploads := [], inTable := false, finished := s.finished || own } := by
      refine h.forgetUploads hwritten fun hthis => ?_
      obtain ⟨hbegun, hclone, hwatching, -⟩ := hown hthis
      refine ⟨hbegun, hclone, hwatching, eq_nil_iff_forall_not_mem.2 fun path hpath => ?_⟩
      obtain ⟨handler, hrunning, -⟩ := hwritten path hpath
      rw [(h.begun hbegun).1] at hrunning
      cases hrunning
    exact hdone.listed fun r hr => .inl (mem_of_mem_eraseIdx hr)

theorem Tracked.goOnRemoving (h : Tracked s) {n : Nat} {r : Removal} (hr : s.removals[n]? = some r)
    (hleaves : r.Leaves s) : Tracked (State.goneOn n r.own (s.goOnRemoving r.stage)) := by
  obtain ⟨own, stage, answered⟩ := r
  have hreached : own = true → s.begun = true ∧ stage.Reached s := h.own _ (mem_of_getElem? hr)
  cases stage with
  | clone =>
    have hforgot := h.forgetClone hleaves
    have hclosed := closeWatchers_watching hforgot
    refine hforgot.closeWatchers.listed fun r hr => ?_
    cases mem_or_eq_of_mem_set hr with
    | inl hold => exact .inl hold
    | inr hnew =>
      subst hnew
      exact .inr fun hthis => ⟨(hreached hthis).1, rfl, hclosed⟩
  | watchers =>
    have hclosed : s.watching = [] := by
      cases hleaves with
      | inl hthis => exact (hreached hthis).2.2
      | inr hnone =>
        refine eq_nil_iff_forall_not_mem.2 fun w hw => ?_
        obtain ⟨path, hget⟩ := h.watching w hw
        exact hnone w (mem_map.2 ⟨(path, w), (s.watchers.get_eq_some path w).1 hget, rfl⟩) hw
    have hlate : ∀ u ∈ s.uploads, ¬ u.stamp ≤ 0 := fun u hu hle => by
      have hpos := (h.stamped u hu).1
      omega
    refine (h.forgetWatchers hclosed).cleanupUploads n (fun hthis => ?_) fun _ hall u hu _ => ?_
    · obtain ⟨hbegun, hclone, -⟩ := hreached hthis
      exact ⟨hbegun, hclone, hclosed, fun u hu hle => absurd hle (hlate u hu)⟩
    · exact absurd (hall u hu) (hlate u hu)
  | upload path stamp =>
    refine h.cleanupUploads n (fun hthis => ?_) fun hthis => ?_
    · obtain ⟨hbegun, hclone, hwatching, huploads⟩ := hreached hthis
      have hgone : path ∉ s.partials := by
        subst hthis
        exact hleaves
      refine ⟨hbegun, hclone, hwatching, fun u hu hle => ?_⟩
      by_cases hsame : u.stamp = stamp
      · rw [(huploads u hu).2 hsame]
        exact hgone
      · exact (huploads u hu).1 (by omega)
    · subst hthis
      exact hleaves

theorem Tracked.begins (h : Tracked s) (hidle : s.handler = none) (hqueue : s.queue = []) (hclosing : s.closing = true)
    (hpty : s.pty = none) : Tracked { s with begun := true } where
  __ := h
  begun _ := ⟨hidle, hqueue, hclosing, hpty⟩
  own r hr hown := by
    exact ⟨rfl, (h.own r hr hown).2.same rfl rfl rfl rfl⟩
  finished hfinished := ⟨rfl, (h.finished hfinished).2⟩

theorem Tracked.removed (h : Tracked s.dropPty) {own : Bool} (hown : own = true → s.dropPty.begun = true) :
    Tracked (s.remove own) := by
  by_cases hset : s.dropPty.cloneSession = true
  · have hrem : s.removeConnection = (s.dropPty, some .clone) := if_pos hset
    simp only [State.remove, hrem]
    refine h.listed fun r hr => ?_
    cases mem_append.1 hr with
    | inl hold => exact .inl hold
    | inr hnew =>
      cases mem_singleton.1 hnew
      exact .inr fun hthis => ⟨hown hthis, trivial⟩
  · have hrem : s.removeConnection = (s.dropPty.closeWatchers.1, some .watchers) := if_neg hset
    have hclosed := closeWatchers_watching h
    simp only [State.remove, hrem]
    refine h.closeWatchers.listed fun r hr => ?_
    cases mem_append.1 hr with
    | inl hold => exact .inl hold
    | inr hnew =>
      cases mem_singleton.1 hnew
      exact .inr fun hthis => ⟨hown hthis, Bool.eq_false_iff.2 hset, hclosed⟩

theorem dropPty_begun (s : State) : { s with begun := true }.dropPty = { s.dropPty with begun := true } := by
  unfold State.dropPty
  cases hpty : s.pty with
  | none => simp only [hpty]
  | some bridge => simp only

theorem Tracked.queued (h : Tracked s) {queue : List Message} {closing : Bool}
    (hbegun : s.begun = true → queue = [] ∧ closing = true) :
    Tracked { s with queue := queue, closing := closing } where
  __ := h
  begun hthis := by
    obtain ⟨hqueue, hclosing⟩ := hbegun hthis
    obtain ⟨hidle, -, -, hpty⟩ := h.begun hthis
    exact ⟨hidle, hqueue, hclosing, hpty⟩
  own r hr hown := by
    obtain ⟨hbegun, hreached⟩ := h.own r hr hown
    exact ⟨hbegun, hreached.same rfl rfl rfl rfl⟩

end Closing

/-! ### Runs -/

theorem tracked_step (h : Tracked s) {e : Event} (hkeeps : KeepsTrack s e) : Tracked (s.step host resolve e) := by
  cases e with
  | message msg =>
    simp only [State.step]
    split
    · exact h
    · rename_i hopen
      exact h.queued fun hbegun => absurd (h.begun hbegun).2.2.1 hopen
  | next =>
    simp only [State.step]
    split
    · rename_i msg rest hidle hqueue
      have hbegun : s.begun = false := by
        refine Bool.eq_false_iff.2 fun hbegun => ?_
        rw [(h.begun hbegun).2.1] at hqueue
        cases hqueue
      have htaken : Tracked { s with queue := rest, closing := s.closing } :=
        h.queued fun hthis => by rw [hbegun] at hthis; cases hthis
      refine (htaken.free (htaken.opens hbegun) ?_ fun path => ?_).handle msg
      · rintro ⟨handler, hrunning, -⟩
        cases hidle.symm.trans hrunning
      · rintro ⟨handler, hrunning, -⟩
        cases hidle.symm.trans hrunning
    · exact h
  | carry x =>
    simp only [State.step]
    split
    · rename_i await hrunning
      exact h.carry hrunning x
    · exact h
  | resume =>
    simp only [State.step]
    split
    · rename_i await x hrunning
      exact h.goOn hrunning (hkeeps _ hrunning)
    · exact h
  | hangUp =>
    simp only [State.step]
    split
    · exact h.dropPty.removed fun hown => by cases hown
    · exact h
  | close => exact h.queued fun hbegun => ⟨(h.begun hbegun).2.1, rfl⟩
  | teardown =>
    simp only [State.step]
    split
    · rename_i hready
      simp only [Bool.and_eq_true, Bool.not_eq_true', Option.isNone_iff_eq_none, List.isEmpty_iff] at hready
      obtain ⟨⟨⟨hclosing, -⟩, hidle⟩, hqueue⟩ := hready
      have hpty := dropPty_pty s
      have hdropped := h.dropPty
      obtain ⟨pty, live, hs⟩ := dropPty_rest s
      rw [hs] at hpty hdropped
      refine Tracked.removed ?_ fun _ => by rw [dropPty_begun]
      rw [dropPty_begun, hs]
      exact hdropped.begins hidle hqueue hclosing hpty
    · exact h
  | carryRemoval n x =>
    simp only [State.step]
    split
    · rename_i own stage hr
      obtain ⟨clone, partials, hs, hclone, hpartials⟩ := carryRemoving_rest s x stage
      rw [hs]
      have hless : Tracked { s with clone := clone, partials := partials } :=
        h.less h.live id hclone (List.Subset.refl _) hpartials
      refine hless.listed fun r hmem => ?_
      cases mem_or_eq_of_mem_set hmem with
      | inl hold => exact .inl hold
      | inr hnew =>
        subst hnew
        refine .inr fun hown => ?_
        obtain ⟨hbegun, hreached⟩ := h.own _ (mem_of_getElem? hr) hown
        exact ⟨hbegun, hreached.less (List.Subset.refl _) hpartials⟩
    · exact h
  | resumeRemoval n =>
    simp only [State.step]
    split
    · rename_i own stage hr
      exact h.goOnRemoving hr (hkeeps _ hr)
    · exact h
  | ptyExit bridge =>
    refine h.less (fun other hother => ?_) (fun hnone => ?_) id (List.Subset.refl _) (List.Subset.refl _)
    · obtain ⟨hlive, hne⟩ := mem_filter.1 hother
      have hpty := h.live other hlive
      rw [if_neg]
      · exact hpty
      · rw [hpty]
        simpa using hne
    · rw [hnone]
      rfl
  | cloneEnds => exact h.less h.live id (fun hno => by cases hno) (List.Subset.refl _) (List.Subset.refl _)
  | fileGone path => exact h.less h.live id id (List.Subset.refl _) filter_sublist.subset

/-- Once the close event's removal is over, nothing is left of the connection, as long as no step forgets what is still
open. -/
theorem nothing_outlives (host : Host) (resolve : String → String) (readOnly : Bool) (es : List Event)
    (hkeeps : ∀ x ∈ (machine host resolve readOnly).trace es, KeepsTrack x.pre x.event)
    (hfinished : ((machine host resolve readOnly).run es).finished = true) :
    Clean ((machine host resolve readOnly).run es) := by
  have htracked : Tracked ((machine host resolve readOnly).run es) := by
    refine trace_invariant _ (fun s _ => Tracked s) (tracked_start readOnly) ?_ hkeeps
    exact fun es e hbefore hlast => tracked_step hbefore hlast
  exact htracked.clean hfinished

def anyHost : Host where
  isPathAllowed _ := true
  watchFailure _ := none
  spawnFailure _ := none
  recordingId _ := ""
  recordingFilename _ _ := ""
  recordingPath _ := ""

instance (s : State) (path : String) : Decidable (s.Touching path) :=
  match h : s.handler with
  | some ⟨.written file _ _, _⟩ | some ⟨.rejected file, _⟩ =>
    decidable_of_iff (file = path) (by simp [State.Touching, h, Await.Touches])
  | none | some ⟨.dropped .., _⟩ | some ⟨.found _, _⟩ | some ⟨.captured, _⟩ | some ⟨.cloned, _⟩ | some ⟨.locked _, _⟩
  | some ⟨.unlocked, _⟩ | some ⟨.unspawned, _⟩ | some ⟨.detached, _⟩ | some ⟨.other _, _⟩ =>
    isFalse (by simp [State.Touching, h, Await.Touches])

instance (s : State) (path : String) : Decidable (s.HasUpload path) := List.decidableBEx _ s.uploads

instance (s : State) (h : Handler) : Decidable (h.Leaves s) := by
  unfold Handler.Leaves
  split
  all_goals infer_instance

instance (s : State) (r : Removal) : Decidable (r.Leaves s) := by
  unfold Removal.Leaves
  split
  all_goals infer_instance

instance (s : State) (e : Event) : Decidable (KeepsTrack s e) := by
  unfold KeepsTrack
  split
  all_goals infer_instance

/-- A viewer attaches to its clone, watches a directory and uploads a part of a file; the owner hangs up, and the
close event comes once that is over. -/
def watchesAndGoes : List Event :=
  [.message (.attach "work" false), .next] ++ (List.replicate 6 [.carry .done, .resume]).flatten ++
    [.message (.watch "/tmp"), .next, .message (.upload "/tmp/a" 5 false), .next, .carry .done, .resume, .hangUp] ++
    (List.replicate 3 [.carryRemoval 0 .done, .resumeRemoval 0]).flatten ++
    [.close, .teardown, .carryRemoval 0 .done, .resumeRemoval 0]

theorem watches_and_goes_clean : Clean ((machine anyHost id true).run watchesAndGoes) :=
  nothing_outlives anyHost id true watchesAndGoes (by decide +kernel) (by decide +kernel)

/-- The owner hangs up, and while the part of an upload is removed its next chunk makes the file again. -/
def uploadedLate : List Event :=
  [.message (.upload "/tmp/a" 5 false), .next, .carry .done, .resume, .hangUp, .carryRemoval 0 .done, .resumeRemoval 0,
    .message (.upload "/tmp/a" 5 false), .next, .carryRemoval 0 .done, .carry .done, .resume, .resumeRemoval 0, .close,
    .teardown, .carryRemoval 0 .done, .resumeRemoval 0]

theorem upload_outlives : ((machine anyHost id false).run uploadedLate).finished = true ∧
    ¬ Clean ((machine anyHost id false).run uploadedLate) := by
  refine ⟨by decide +kernel, fun hclean => ?_⟩
  have hpartials : ((machine anyHost id false).run uploadedLate).partials = ["/tmp/a"] := by decide +kernel
  rw [hclean.partials] at hpartials
  cases hpartials

end Mtmux.Relay.Teardown
