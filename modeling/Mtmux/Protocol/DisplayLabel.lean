import Mtmux.Base.Text

/-! Text supplied by a peer that ends up on a human's terminal. -/
namespace Mtmux.Protocol

/-- Longest label anything will display. -/
def maxLabelLength : Nat := 120

/-- C0, DEL, C1, the zero-width characters and the direction overrides. -/
def isUnsafe (c : Char) : Bool :=
  c.val ≤ 0x1F || (0x7F ≤ c.val && c.val ≤ 0x9F) || (0x200B ≤ c.val && c.val ≤ 0x200F) ||
    (0x202A ≤ c.val && c.val ≤ 0x202E) || (0x2066 ≤ c.val && c.val ≤ 0x2069)

def sanitizeLabel (raw : String) (maxLength : Nat) : String :=
  String.ofList (sliceUnits maxLength (trimChars (raw.toList.filter fun c => !isUnsafe c)))

/-- The label as it should be shown when nothing of it is left. -/
def displayLabel (raw fallback : String) : String :=
  if sanitizeLabel raw maxLabelLength = "" then fallback else sanitizeLabel raw maxLabelLength

/-- No character is in the set that labels are freed from; U+061C, U+2060 and U+FEFF are not in it. -/
def Harmless (text : String) : Prop := ∀ c ∈ text.toList, isUnsafe c = false

instance (text : String) : Decidable (Harmless text) := List.decidableBAll _ text.toList

theorem harmless_sanitizeLabel (raw : String) (maxLength : Nat) : Harmless (sanitizeLabel raw maxLength) := by
  intro c hc
  have hslice : c ∈ sliceUnits maxLength (trimChars (raw.toList.filter fun c => !isUnsafe c)) := by
    simpa only [sanitizeLabel, String.toList_ofList] using hc
  have htrimmed := mem_trimChars ((sliceUnits_begins _ _).subset hslice)
  simpa using (List.mem_filter.1 htrimmed).2

theorem harmless_displayLabel (raw : String) {fallback : String} (h : Harmless fallback) :
    Harmless (displayLabel raw fallback) := by
  unfold displayLabel
  split
  · exact h
  · exact harmless_sanitizeLabel raw _

end Mtmux.Protocol
