import LamTo.Model.Scanner

/-!
# What a scan says of a file

The scanning service is a parameter, with what its documentation says: it reads the command and
the frames that follow, judges the content once the stream has ended, and answers one line with
a zero byte after it. The connection may break anywhere, and either side may see only the first
bytes of what the other one sent.

* `sendChunks_spec`: the frames that are sent carry the file from its beginning.
* `of_scanResponse`: what was answered was answered to the file, not to a part of it.
* `scan_sound`: a file that was found clean, or not, was judged so as a whole.
* `scan_healthy`: what a scan says when nothing breaks. A name is only recognised when it ends
  in a colon, so a file that was found infected mostly counts as not scanned.

SOURCE: src/lamto/documents/scanner.py:16-40
-/

set_option autoImplicit false

namespace LamTo.Analysis

open LamTo.Library LamTo.Model

/-! ## The scanning service -/

inductive Verdict where
  | clean
  | found (name : List UInt8)
  | failed (text : List UInt8)
deriving DecidableEq

def Verdict.text : Verdict → List UInt8
  | .clean => asciiBytes "stream: OK"
  | .found name => asciiBytes "stream: " ++ name ++ asciiBytes " FOUND"
  | .failed text => text ++ asciiBytes " ERROR"

/-- What the code makes of a verdict. -/
def Verdict.outcome : Verdict → Except ScanError Bool
  | .clean => .ok true
  | .found name =>
    if [58] <:+ name then .ok false
    else .error (.unavailable "ClamAV returned an invalid response.")
  | .failed _ => .error (.unavailable "ClamAV returned an invalid response.")

def scanCommand : List UInt8 := asciiBytes "zINSTREAM" ++ [0]

/-- `judge` is what the service says of a content, `refuse` its error for anything else. -/
structure Clamd where
  judge : List UInt8 → Verdict
  refuse : List UInt8 → List UInt8

namespace Clamd

/-- What the service says of the bytes it received. -/
def verdict (service : Clamd) (received : List UInt8) : Verdict :=
  if scanCommand <+: received then
    match readFrames (received.drop scanCommand.length) with
    | some (content, _) => service.judge content
    | none => .failed (service.refuse received)
  else .failed (service.refuse received)

def answer (service : Clamd) (received : List UInt8) : List UInt8 :=
  (service.verdict received).text ++ [0]

/-- The zero byte only ends a line. -/
def Plain (service : Clamd) : Prop := ∀ received, 0 ∉ (service.verdict received).text

/-- The connection leads to the service: a part of what was sent is received, and a part of the
answer to it comes back. -/
def Behind (service : Clamd) (c : Connection) : Prop :=
  ∀ sent response, c.recv sent = some response →
    ∃ received, received <+: sent.flatten ∧ response <+: service.answer received

end Clamd

/-! ## What is sent -/

/-- **The frames carry the file** from the position on, in chunks that are neither empty nor too
long for their length field. -/
theorem sendChunks_spec (c : Connection) (f : OpenFile) (sent sent' : List (List UInt8))
    (h : sendChunks c f sent = some sent') :
    ∃ chunks : List (List UInt8), sent' = sent ++ chunks.map frame ∧
      chunks.flatten = f.content.drop f.position ∧
      ∀ chunk ∈ chunks, chunk ≠ [] ∧ chunk.length < 4294967296 := by
  induction f, sent using sendChunks.induct generalizing sent' with
  | case1 f sent hdone =>
    rw [sendChunks, if_pos hdone] at h
    refine ⟨[], ?_, ?_, List.forall_mem_nil _⟩
    · rw [List.map_nil, List.append_nil, Option.some.inj h]
    · rw [OpenFile.next, List.take_eq_nil_iff] at hdone
      exact (hdone.resolve_left (by decide)).symm
  | case2 f sent hmore ih =>
    rw [sendChunks, if_neg hmore, Option.bind_eq_some_iff] at h
    obtain ⟨next, hsend, hrest⟩ := h
    unfold sendall at hsend
    split at hsend
    · obtain rfl := Option.some.inj hsend
      obtain ⟨chunks, rfl, hcontent, hchunks⟩ := ih _ _ hrest
      refine ⟨f.next 8192 :: chunks, ?_, ?_, List.forall_mem_cons.mpr ⟨⟨hmore, ?_⟩, hchunks⟩⟩
      · rw [List.map_cons, List.append_assoc, List.singleton_append]
      · have hsplit := List.prefix_iff_eq_append.mp
          (List.take_prefix 8192 (f.content.drop f.position))
        rw [List.drop_drop] at hsplit
        rw [List.flatten_cons, hcontent]
        exact hsplit
      · exact lt_of_le_of_lt (List.length_take_le _ _) (by decide)
    · cases hsend

theorem sendChunks_isSome (c : Connection) (hsends : ∀ k, c.sends k = true) (f : OpenFile)
    (sent : List (List UInt8)) : ∃ sent', sendChunks c f sent = some sent' := by
  induction f, sent using sendChunks.induct with
  | case1 f sent hdone => exact ⟨sent, by rw [sendChunks, if_pos hdone]⟩
  | case2 f sent hmore ih =>
    rw [sendChunks, if_neg hmore, sendall, if_pos (hsends _), Option.bind_some]
    exact ih _

/-- The bytes of a scan: the command, and the file in frames from its beginning. -/
theorem of_scanResponse (c : Connection) (f : OpenFile) (response : List UInt8)
    (h : scanResponse c f = some response) :
    ∃ (chunks sent : List (List UInt8)), c.recv sent = some response ∧
      sent.flatten = scanCommand ++ writeFrames chunks ∧ chunks.flatten = f.content ∧
      ∀ chunk ∈ chunks, chunk ≠ [] ∧ chunk.length < 4294967296 := by
  unfold scanResponse at h
  split at h
  · simp only [Option.bind_eq_bind, Option.bind_eq_some_iff] at h
    obtain ⟨opened, hopen, carried, hcarry, sent, hsend, hrecv⟩ := h
    unfold sendall at hopen hsend
    split at hopen
    · split at hsend
      · obtain rfl := Option.some.inj hopen
        obtain rfl := Option.some.inj hsend
        obtain ⟨chunks, rfl, hcontent, hchunks⟩ := sendChunks_spec c _ _ _ hcarry
        refine ⟨chunks, _, hrecv, ?_, hcontent, hchunks⟩
        simp only [List.flatten_append, List.flatten_cons, List.flatten_nil, List.append_nil,
          List.nil_append, writeFrames, scanCommand, List.flatMap_def, List.append_assoc]
      · cases hsend
    · cases hopen
  · cases h

/-- **The service judges the whole file or nothing.** -/
theorem verdict_of_part (service : Clamd) (chunks : List (List UInt8)) (received : List UInt8)
    (hchunks : ∀ chunk ∈ chunks, chunk ≠ [] ∧ chunk.length < 4294967296)
    (hpart : received <+: scanCommand ++ writeFrames chunks) :
    service.verdict received = service.judge chunks.flatten ∨
      ∃ text, service.verdict received = .failed text := by
  unfold Clamd.verdict
  split
  · rename_i hcommand
    obtain ⟨part, rfl⟩ := hcommand
    rw [List.drop_left]
    cases hread : readFrames part with
    | none => exact Or.inr ⟨_, rfl⟩
    | some r =>
      obtain ⟨_, hcontent⟩ := readFrames_prefix chunks part r.1 r.2 hchunks
        ((List.prefix_append_right_inj _).mp hpart) hread
      exact Or.inl (congrArg service.judge hcontent)
  · exact Or.inr ⟨_, rfl⟩

theorem verdict_of_whole (service : Clamd) (chunks : List (List UInt8))
    (hchunks : ∀ chunk ∈ chunks, chunk ≠ [] ∧ chunk.length < 4294967296) :
    service.verdict (scanCommand ++ writeFrames chunks) = service.judge chunks.flatten := by
  have hread := readFrames_writeFrames chunks [] hchunks
  rw [List.append_nil] at hread
  rw [Clamd.verdict, if_pos (List.prefix_append _ _), List.drop_left, hread]

/-! ## What is answered -/

/-- A response that is not refused at once is the whole line. -/
theorem whole_answer (text response : List UInt8) (hplain : 0 ∉ text)
    (hpart : response <+: text ++ [0]) (hend : [0] <:+ response) : response = text ++ [0] := by
  rcases List.prefix_concat_iff.mp hpart with hwhole | hpart
  · exact hwhole
  · exact absurd (hpart.subset (hend.subset List.mem_cons_self)) hplain

/-- The text of a whole line. -/
theorem readResponse_line (text : List UInt8) (hplain : 0 ∉ text) :
    readResponse (text ++ [0]) =
      if asciiBytes ": OK" <:+ text then .ok true
      else if asciiBytes ": FOUND" <:+ text then .ok false
      else .error (.unavailable "ClamAV returned an invalid response.") := by
  have hstrip : (text ++ [0]).rdropWhile (fun b => decide (b = 0)) = text := by
    rw [List.rdropWhile_concat_pos _ _ _ (by decide), List.rdropWhile_eq_self_iff]
    intro hne hlast
    exact hplain (of_decide_eq_true hlast ▸ List.getLast_mem hne)
  have hline : ¬ (text ++ [0] = [] ∨ ¬ [0] <:+ text ++ [0]) := by
    rintro (h | h)
    · cases (List.append_eq_nil_iff.mp h).2
    · exact h (List.suffix_append _ _)
  simp only [readResponse, if_neg hline, hstrip]

/-- What the text of each verdict means to the code. -/
theorem readResponse_verdict (verdict : Verdict) (hplain : 0 ∉ verdict.text) :
    readResponse (verdict.text ++ [0]) = verdict.outcome := by
  rw [readResponse_line _ hplain]
  cases verdict with
  | clean => decide
  | found name =>
    have hok : ¬ asciiBytes ": OK" <:+ (Verdict.found name).text := by
      intro h
      have hshort : asciiBytes ": OK" <:+ asciiBytes " FOUND" :=
        List.suffix_of_suffix_length_le h (List.suffix_append _ _) (by decide)
      revert hshort
      decide
    have hfound : asciiBytes ": FOUND" <:+ (Verdict.found name).text ↔ [58] <:+ name := by
      have hcolon : asciiBytes ": FOUND" = [58] ++ asciiBytes " FOUND" := by decide
      rw [hcolon, Verdict.text, List.suffix_append_self_iff,
        List.singleton_suffix_iff_getLast?_eq_some, List.singleton_suffix_iff_getLast?_eq_some,
        List.getLast?_append]
      cases name.getLast? with
      | none => decide
      | some b => rfl
    simp only [hok, if_false, hfound, Verdict.outcome]
  | failed text =>
    have hother : ∀ ending : List UInt8, ending <:+ (Verdict.failed text).text →
        ending.length ≤ (asciiBytes "x ERROR").length → ending.drop 1 <:+ asciiBytes " ERROR" := by
      intro ending h hlength
      exact List.suffix_of_suffix_length_le ((List.drop_suffix 1 ending).trans h)
        (List.suffix_append _ _) (by
          rw [List.length_drop]
          have : (asciiBytes "x ERROR").length = (asciiBytes " ERROR").length + 1 := by decide
          omega)
    have hok : ¬ asciiBytes ": OK" <:+ (Verdict.failed text).text := by
      intro h
      have := hother _ h (by decide)
      revert this
      decide
    have hfound : ¬ asciiBytes ": FOUND" <:+ (Verdict.failed text).text := by
      intro h
      have := hother _ h (by decide)
      revert this
      decide
    simp only [hok, hfound, if_false, Verdict.outcome]

/-! ## The scan -/

/-- **A file is found clean, or not, as a whole.** Wherever the connection breaks and however the
answer is cut, `True` means the service judged exactly this file clean; `False` means that it
found something in it whose name ends in a colon. -/
theorem scan_sound (service : Clamd) (c : Connection) (f : OpenFile) (hbehind : service.Behind c)
    (hplain : service.Plain) :
    ((scanWithClamav c f).2 = .ok true → service.judge f.content = .clean) ∧
      ((scanWithClamav c f).2 = .ok false →
        ∃ name, service.judge f.content = .found name ∧ [58] <:+ name) := by
  have hresult : ∀ b, (scanWithClamav c f).2 = .ok b →
      ∃ verdict, readResponse (verdict.text ++ [0]) = .ok b ∧ 0 ∉ verdict.text ∧
        (verdict = service.judge f.content ∨ ∃ text, verdict = .failed text) := by
    intro b h
    simp only [scanWithClamav] at h
    split at h
    · cases h
    · rename_i response hresponse
      obtain ⟨chunks, sent, hrecv, hsent, hcontent, hchunks⟩ := of_scanResponse c f _ hresponse
      obtain ⟨received, hreceived, hanswer⟩ := hbehind sent response hrecv
      have hend : [0] <:+ response := by
        by_contra hend
        rw [readResponse, if_pos (Or.inr hend)] at h
        cases h
      rw [whole_answer _ response (hplain received) hanswer hend] at h
      refine ⟨service.verdict received, h, hplain received, ?_⟩
      rw [← hcontent]
      exact verdict_of_part service chunks received hchunks (hsent ▸ hreceived)
  constructor
  · intro h
    obtain ⟨verdict, hread, hnul, hverdict⟩ := hresult true h
    rw [readResponse_verdict verdict hnul] at hread
    cases verdict with
    | clean => exact (hverdict.resolve_right fun ⟨_, h⟩ => by cases h).symm
    | found name =>
      rw [Verdict.outcome] at hread
      split at hread <;> cases hread
    | failed text => cases hread
  · intro h
    obtain ⟨verdict, hread, hnul, hverdict⟩ := hresult false h
    rw [readResponse_verdict verdict hnul] at hread
    cases verdict with
    | clean => cases hread
    | found name =>
      rw [Verdict.outcome] at hread
      split at hread
      · rename_i hcolon
        exact ⟨name, (hverdict.resolve_right fun ⟨_, h⟩ => by cases h).symm, hcolon⟩
      · cases hread
    | failed text => cases hread

/-- **What a scan says when nothing breaks.** The service received the whole stream and its
answer came back in one piece: the code says what it makes of the service's verdict. -/
theorem scan_healthy (service : Clamd) (c : Connection) (f : OpenFile)
    (hconnects : c.connects = true) (hsends : ∀ k, c.sends k = true)
    (hrecv : ∀ sent, c.recv sent = some (service.answer sent.flatten)) (hplain : service.Plain) :
    scanWithClamav c f = (f.seek 0, (service.judge f.content).outcome) := by
  obtain ⟨carried, hcarry⟩ := sendChunks_isSome c hsends (f.seek 0) [scanCommand]
  have hresponse : scanResponse c f =
      some (service.answer (carried ++ [packLength 0]).flatten) := by
    simp only [scanResponse, hconnects, if_true, sendall, hsends, Option.bind_eq_bind,
      Option.bind_some, List.nil_append]
    rw [← scanCommand, hcarry, Option.bind_some]
    exact hrecv _
  obtain ⟨chunks, sent, hanswer, hsent, hcontent, hchunks⟩ := of_scanResponse c f _ hresponse
  rw [hrecv, hsent, Clamd.answer] at hanswer
  have hread := readResponse_verdict _ (hplain (scanCommand ++ writeFrames chunks))
  rw [Option.some.inj hanswer, verdict_of_whole service chunks hchunks, hcontent] at hread
  simp only [scanWithClamav, hresponse, hread]

/-- A service that finds every file infected that holds a zero byte. -/
def sampleClamd : Clamd where
  judge := fun content => if 0 ∈ content then .found (asciiBytes "Zero.Byte") else .clean
  refuse := fun _ => asciiBytes "UNKNOWN COMMAND."

theorem sampleClamd_plain : sampleClamd.Plain := by
  intro received
  have hjudge : ∀ content, 0 ∉ (sampleClamd.judge content).text := by
    intro content
    simp only [sampleClamd]
    split
    · decide
    · decide
  have hrefuse : 0 ∉ (Verdict.failed (asciiBytes "UNKNOWN COMMAND.")).text := by decide
  unfold Clamd.verdict
  split
  · split
    · exact hjudge _
    · exact hrefuse
  · exact hrefuse

/-- The connection to a service where nothing breaks. -/
def soundConnection (service : Clamd) : Connection where
  connects := true
  sends := fun _ => true
  recv := fun sent => some (service.answer sent.flatten)

theorem scan_sound_sample :
    ((scanWithClamav (soundConnection sampleClamd) ⟨[1, 2, 3], 2⟩).2 = .ok true →
      sampleClamd.judge [1, 2, 3] = .clean) ∧
    ((scanWithClamav (soundConnection sampleClamd) ⟨[1, 2, 3], 2⟩).2 = .ok false →
      ∃ name, sampleClamd.judge [1, 2, 3] = .found name ∧ [58] <:+ name) := by
  have hbehind : sampleClamd.Behind (soundConnection sampleClamd) := by
    intro sent response h
    obtain rfl := Option.some.inj h
    exact ⟨sent.flatten, List.prefix_rfl, List.prefix_rfl⟩
  exact scan_sound sampleClamd (soundConnection sampleClamd) ⟨[1, 2, 3], 2⟩ hbehind
    sampleClamd_plain

theorem scan_healthy_sample :
    (scanWithClamav (soundConnection sampleClamd) ⟨[1, 2, 0], 3⟩).2 =
        .error (.unavailable "ClamAV returned an invalid response.") ∧
      (scanWithClamav (soundConnection sampleClamd) ⟨[1, 2, 3], 0⟩).2 = .ok true := by
  have hscan := fun f => scan_healthy sampleClamd (soundConnection sampleClamd) f rfl
    (fun _ => rfl) (fun _ => rfl) sampleClamd_plain
  rw [hscan, hscan]
  decide

end LamTo.Analysis
