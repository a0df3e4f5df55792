import Mtmux.Relay.OwnClones

/-! How tmux finds the session a `-t` names, and which clones there can be of one name. -/
namespace Mtmux.Relay
open List

/-- The only one there is. -/
def only {α : Type} : List α → Option α
  | [a] => some a
  | _ => none

theorem only_mem {α : Type} {l : List α} {a : α} (h : only l = some a) : a ∈ l := by
  match l with
  | [] => cases h
  | [b] =>
    cases h
    exact mem_singleton.2 rfl
  | _ :: _ :: _ => cases h

section Resolve
variable (matchesPattern : String → String → Bool)

def resolve (sessions : List String) (target : String) : Option String :=
  if target ∈ sessions then some target
  else (only (sessions.filter fun name => name.startsWith target)).orElse fun _ =>
    only (sessions.filter (matchesPattern target))

def Unambiguous (sessions : List String) (target : String) : Prop :=
  target ∈ sessions ∨ only (sessions.filter fun name => name.startsWith target) = none ∧
    only (sessions.filter (matchesPattern target)) = none

variable {matchesPattern} {sessions : List String} {target : String}

theorem resolve_exact : (∀ hit, resolve matchesPattern sessions target = some hit → hit = target) ↔
    Unambiguous matchesPattern sessions target := by
  unfold resolve Unambiguous
  by_cases hmem : target ∈ sessions
  · simp [hmem]
  · simp only [hmem, false_or]
    constructor
    · intro hexact
      have hno : ∀ (p : String → Bool) hit, only (sessions.filter p) = some hit → hit ≠ target := by
        intro p hit hhit heq
        exact hmem (heq ▸ (mem_filter.1 (only_mem hhit)).1)
      cases hbegins : only (sessions.filter fun name => name.startsWith target) with
      | some hit =>
        have heq := hexact hit (by rw [hbegins]; rfl)
        exact absurd heq (hno _ hit hbegins)
      | none =>
        refine ⟨rfl, ?_⟩
        cases hpattern : only (sessions.filter (matchesPattern target)) with
        | none => rfl
        | some hit =>
          have heq := hexact hit (by rw [hbegins, hpattern]; rfl)
          exact absurd heq (hno _ hit hpattern)
    · intro hnone hit hhit
      rw [hnone.1, hnone.2] at hhit
      cases hhit

end Resolve

/-! ### Whose clone a name is -/

theorem toList_repr_not_mem {c : Char} (hc : c.isDigit = false) (n : Nat) : c ∉ n.repr.toList := by
  intro hmem
  rw [Nat.toList_repr] at hmem
  have hdigit := Nat.isDigit_of_mem_toDigits (by decide) (by decide) hmem
  rw [hdigit] at hc
  cases hc

theorem sanitise_toList (part : String) :
    (sanitise part).toList = part.toList.filter fun c => c.isAlphanum || c = '_' || c = '-' := by
  unfold sanitise
  rw [String.toList_ofList]

theorem connectionName_toList (n : Nat) : (connectionName n).toList = "conn-".toList ++ n.repr.toList := by
  unfold connectionName
  rw [String.toList_append]

theorem sanitise_connectionName (n : Nat) : (sanitise (connectionName n)).toList = (connectionName n).toList := by
  rw [sanitise_toList, filter_eq_self]
  intro c hc
  rw [connectionName_toList] at hc
  cases mem_append.1 hc with
  | inl hletters =>
    have hall : "conn-".toList.all (fun c => c.isAlphanum || c = '_' || c = '-') = true := by decide
    exact all_eq_true.1 hall c hletters
  | inr hdigits =>
    rw [Nat.toList_repr] at hdigits
    have hdigit := Nat.isDigit_of_mem_toDigits (by decide) (by decide) hdigits
    simp [Char.isAlphanum, hdigit]

theorem cloneNameFor_toList (grantId : String) (n : Nat) : (cloneNameFor grantId (connectionName n)).toList =
    (clonePrefix.toList ++ (sanitise grantId).toList) ++ '_' :: (connectionName n).toList := by
  unfold cloneNameFor
  simp only [String.toList_append, sanitise_connectionName]
  simp

theorem IsCloneOf.unique {conn conn' name : String} (h : IsCloneOf conn name) (h' : IsCloneOf conn' name) :
    conn = conn' := by
  obtain ⟨⟨n, rfl⟩, grantId, rfl⟩ := h
  obtain ⟨⟨n', rfl⟩, grantId', hname⟩ := h'
  have hlist := congrArg String.toList hname
  rw [cloneNameFor_toList, cloneNameFor_toList] at hlist
  have hno : ∀ k, '_' ∉ (connectionName k).toList := by
    intro k hmem
    rw [connectionName_toList] at hmem
    cases mem_append.1 hmem with
    | inl hletters => exact absurd hletters (by decide)
    | inr hdigits => exact toList_repr_not_mem (by decide) k hdigits
  exact String.toList_inj.1 (Separator.split_last_inj (hno n) (hno n') hlist).2

/-- `rec_` and base32 characters: how recordings are called. -/
def isRecordingId (id : String) : Bool :=
  id.startsWith "rec_" && (id.toList.drop 4).all fun c => "abcdefghijklmnopqrstuvwxyz234567".toList.contains c

theorem recordingId_no_hyphen {id : String} (h : isRecordingId id = true) : '-' ∉ id.toList := by
  unfold isRecordingId at h
  rw [Bool.and_eq_true, String.startsWith_string_iff] at h
  obtain ⟨⟨rest, hrest⟩, hall⟩ := h
  rw [← hrest] at hall ⊢
  intro hmem
  cases mem_append.1 hmem with
  | inl hbegins => exact absurd hbegins (by decide)
  | inr hbody =>
    have hdrop : ("rec_".toList ++ rest).drop 4 = rest := rfl
    rw [hdrop, all_eq_true] at hall
    exact absurd (hall '-' hbody) (by decide)

theorem IsCloneOf.not_recording {conn name id : String} (h : IsCloneOf conn name) (hid : isRecordingId id = true) :
    name ≠ recordingCloneNameFor id := by
  obtain ⟨⟨n, rfl⟩, grantId, rfl⟩ := h
  intro hname
  have hlist := congrArg String.toList hname
  rw [cloneNameFor_toList] at hlist
  have hmem : '-' ∈ (recordingCloneNameFor id).toList := by
    rw [← hlist]
    refine mem_append_right _ (mem_cons_of_mem _ ?_)
    rw [connectionName_toList]
    exact mem_append_left _ (by decide)
  unfold recordingCloneNameFor at hmem
  rw [String.toList_append, String.toList_append, sanitise_toList] at hmem
  cases mem_append.1 hmem with
  | inl hbegins => exact absurd hbegins (by decide)
  | inr hbody => exact recordingId_no_hyphen hid (mem_filter.1 hbody).1

end Mtmux.Relay
