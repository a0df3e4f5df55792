import Mtmux.Relay.HttpAccess

/-! The ranges of a file over plain HTTP: what the head says and what is streamed. -/
namespace Mtmux.Relay

/-- The bytes that follow the head. -/
def HttpBody.streamed (content : List UInt8) : HttpBody → List UInt8
  | .text body => body.toList.flatMap String.utf8EncodeChar
  | .stream _ start length => (content.drop start).take length
  | .unfinished => []

/-- The heads that are written: a stream that cannot be opened throws, and the handler of the error writes its own. -/
def HttpResponse.heads (res : HttpResponse) : Nat :=
  match res.body with
  | .unfinished => 2
  | _ => 1

/-- The answer is one response whose headers say which bytes of the content it streams. -/
structure ExactRange (content : List UInt8) (res : HttpResponse) : Prop where
  one : res.heads = 1
  status : res.status = 206 ∨ res.status = 416 ∨ res.status = 200
  part : res.status = 206 → ∃ start stop, start ≤ stop ∧ stop < content.length ∧
    res.headers.lookup "Content-Range" =
      some ("bytes " ++ toString start ++ "-" ++ toString stop ++ "/" ++ toString content.length) ∧
    res.headers.lookup "Content-Length" = some (toString (res.body.streamed content).length) ∧
    (res.body.streamed content).length = stop - start + 1 ∧
    ∀ i < stop - start + 1, (res.body.streamed content)[i]? = content[start + i]?
  none : res.status = 416 → res.body.streamed content = []
  whole : res.status = 200 → res.body.streamed content = content ∧
    res.headers.lookup "Content-Length" = some (toString content.length)

/-- The range that the header names first, if it begins in the file, does not end before it begins. -/
def Forward (range : Option String) (size : Nat) : Prop :=
  ∀ start stop, (range.bind fun header => parseRange header.toList) = some (start, some stop) → start < size → start ≤ stop

section
variable (host : HttpHost) (resolved : String) (download : Bool) (range : Option String)

theorem heads_serveFile (size : Nat) : (serveFile host resolved download range ⟨true, size⟩).heads = 1 ↔ Forward range size := by
  unfold serveFile Forward
  cases range.bind fun header => parseRange header.toList with
  | none => simp [HttpResponse.heads]
  | some found =>
    obtain ⟨start, stop⟩ := found
    by_cases hlate : size ≤ start
    · simp [hlate, HttpResponse.heads]
      omega
    · cases stop with
      | none =>
        have hlt : ¬ size - 1 < start := by omega
        simp [hlate, hlt, HttpResponse.heads]
      | some stop =>
        by_cases hrev : min stop (size - 1) < start
        · simp [hlate, hrev, HttpResponse.heads]
          omega
        · simp [hlate, hrev, HttpResponse.heads]
          omega

/-- The headers of every answer are others than these two. -/
theorem lookup_headers {key : String} (hkey : key = "Content-Range" ∨ key = "Content-Length") (more : List (String × String)) :
    ([("Content-Type", host.getMimeType resolved), ("Cache-Control", "private, max-age=60")] ++
      (if download then [contentDisposition host (host.basename resolved)] else []) ++ more).lookup key = more.lookup key := by
  obtain rfl | rfl := hkey <;> cases download <;> simp [contentDisposition, List.lookup_cons]

theorem streamed_getElem? (content : List UInt8) (start length i : Nat) (h : i < length) :
    (HttpBody.streamed content (.stream resolved start length))[i]? = content[start + i]? := by
  simp [HttpBody.streamed, h]

/-- A file is answered exactly if and only if the range is not a reversed one. -/
theorem exact_range_iff (content : List UInt8) :
    ExactRange content (serveFile host resolved download range ⟨true, content.length⟩) ↔ Forward range content.length := by
  constructor
  · intro h
    exact (heads_serveFile host resolved download range content.length).1 h.one
  · intro h
    have hone := (heads_serveFile host resolved download range content.length).2 h
    unfold serveFile at hone ⊢
    cases hrange : range.bind fun header => parseRange header.toList with
    | none =>
      refine ⟨rfl, by simp, by simp, by simp, fun _ => ⟨by simp [HttpBody.streamed], ?_⟩⟩
      exact lookup_headers host resolved download (.inr rfl) _
    | some found =>
      obtain ⟨start, stop⟩ := found
      by_cases hlate : content.length ≤ start
      · simp only [Bool.not_true, if_neg Bool.false_ne_true, if_pos hlate]
        exact ⟨rfl, by simp, by simp, fun _ => by simp [HttpBody.streamed], by simp⟩
      · have hle : start ≤ min (stop.getD (content.length - 1)) (content.length - 1) := by
          cases stop with
          | none => simp; omega
          | some stop =>
            have hforward := h start stop hrange (by omega)
            simp
            omega
        simp only [Bool.not_true, if_neg Bool.false_ne_true, if_neg hlate, if_neg (Nat.not_lt.2 hle)]
        generalize hstop : min (stop.getD (content.length - 1)) (content.length - 1) = last at hle
        have hlast : last < content.length := by omega
        have hlength : (HttpBody.streamed content (.stream resolved start (last - start + 1))).length = last - start + 1 := by
          simp [HttpBody.streamed]
          omega
        refine ⟨rfl, by simp, fun _ => ⟨start, last, hle, hlast, ?_, ?_, hlength, ?_⟩, by simp, by simp⟩
        · exact lookup_headers host resolved download (.inl rfl) _
        · rw [hlength]
          have hint : (last : Int) - start + 1 = ((last - start + 1 : Nat) : Int) := by omega
          rw [hint]
          exact lookup_headers host resolved download (.inr rfl) _
        · exact fun i hi => streamed_getElem? resolved content start _ i hi

end

/-- A file of three bytes, and a range of it that ends before it begins. -/
theorem reversed_range : ¬ ExactRange [1, 2, 3]
    (serveFile ⟨fun _ => true, id, id, fun _ => "text/plain", id, id⟩ "/f" false (some "bytes=2-1") ⟨true, 3⟩) := by
  intro h
  have hforward := (heads_serveFile _ _ _ _ 3).1 h.one
  exact absurd (hforward 2 1 (by decide) (by omega)) (by omega)

end Mtmux.Relay
