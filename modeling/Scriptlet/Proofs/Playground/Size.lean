import Mathlib.Algebra.Group.Int.Defs
import Mathlib.Algebra.Group.Nat.Defs
import Scriptlet.Proofs.Payload.Escaping
import Scriptlet.Proofs.Playground.Containment

/-!
# Size: which programs a playground takes

A program has to fit the limit on programs, and the body that carries it the limit on bodies. The
second limit is four times the first and 4096, in 64 bits. A body that holds nothing but a program
is longer than the program by its frame and by what is escaped. So a program that fits the first
limit is refused for its size exactly if its body is longer than the second: where that has wrapped
around, or where much of the program is written by codes.
-/

namespace Scriptlet

/-- It was answered that the program, or the body that carries it, is too large. -/
def Handled.SaysTooLarge : Handled → Prop
  | .reply r => r.status = 413
  | .crash _ => False

namespace Playground

/-- What stands before the program in a body that holds nothing else. -/
def bodyHead : Bytes := utf8 "\x7b\"code\":\""

/-- What stands behind the program in a body that holds nothing else. -/
def bodyTail : Bytes := utf8 "\"\x7d"

/-- The body that asks to run a program and says nothing else, escaped only where it must be. -/
def codeBody (code : Bytes) : Bytes := bodyHead ++ (Payload.escapedText code ++ bodyTail)

/-- The program is a text, is not blank and keeps to the limit on programs. -/
structure Fits (p : Playground) (code : Bytes) : Prop where
  positive : 0 < p.maxSourceBytes
  isUtf8 : isUtf8 code = true
  notBlank : (trimBlanks code).isEmpty = false
  length_le : (code.length : Int) ≤ p.maxSourceBytes.toInt

variable {p : Playground} {code : Bytes}

/-! ## Lengths -/

theorem length_codeBody (code : Bytes) :
    (codeBody code).length =
      code.length + code.countP Payload.isMarked + 5 * code.countP Payload.isControl + 11 := by
  have hhead : bodyHead.length = 9 := rfl
  have htail : bodyTail.length = 2 := rfl
  rw [codeBody, List.length_append, List.length_append, Payload.length_escapedText, hhead, htail]
  omega

/-- The limit on bodies is counted in 64 bits, and a negative one is none at all. -/
theorem bodyLimit_eq (p : Playground) :
    (p.bodyLimit : Int) = max 0 ((4 * p.maxSourceBytes.toInt + 4096).bmod (2 ^ 64)) := by
  have hlimit : (p.maxSourceBytes * 4 + 4096).toInt =
      (4 * p.maxSourceBytes.toInt + 4096).bmod (2 ^ 64) := by
    rw [Int64.toInt_add, Int64.toInt_mul, Int.bmod_add_bmod, Int.mul_comm]
    rfl
  rw [bodyLimit, hlimit]
  omega

/-- The limit is what it is meant to be as long as that is a number of 64 bits. -/
theorem bodyLimit_eq_of_lt (hpos : 0 < p.maxSourceBytes.toInt)
    (h : 4 * p.maxSourceBytes.toInt + 4096 < 2 ^ 63) :
    (p.bodyLimit : Int) = 4 * p.maxSourceBytes.toInt + 4096 := by
  have hexact : (4 * p.maxSourceBytes.toInt + 4096).bmod (2 ^ 64) =
      4 * p.maxSourceBytes.toInt + 4096 :=
    Int.bmod_eq_of_le (by omega) (by omega)
  rw [bodyLimit_eq, hexact]
  omega

/-! ## Reading the body -/

open Payload

/-- Behind its head, the body is read as the string that is the program, and then the end. -/
theorem readValue_bodyHead (bound : Nat) (t : Bytes) :
    readValue (bound + 4) 0 (bodyHead ++ t) =
      (readString (t.length + 1) [] t).andThen fun code after =>
        match skipSpace after with
        | [] => .unfinished
        | d :: after =>
          if d == byte ',' then readFields (bound + 1) 1 [(utf8 "code", .string code)] after
          else if d == byte '\x7d' then .done (.object [(utf8 "code", .string code)]) after
          else .malformed := by
  have hobject : readValue (bound + 4) 0 (bodyHead ++ t) =
      readFirstField (bound + 3) 1 (utf8 "\"code\":\"" ++ t) := by
    rw [readValue]
    rfl
  have hfirst : readFirstField (bound + 3) 1 (utf8 "\"code\":\"" ++ t) =
      readFields (bound + 2) 1 [] (utf8 "\"code\":\"" ++ t) := by
    rw [readFirstField]
    rfl
  have hstring : readValue (bound + 1) 1 (byte '"' :: t) =
      (readString (t.length + 1) [] t).andThen fun code after => .done (.string code) after := by
    rw [readValue]
    rfl
  have hfields : readFields (bound + 2) 1 [] (utf8 "\"code\":\"" ++ t) =
      (readValue (bound + 1) 1 (byte '"' :: t)).andThen fun value after =>
        match skipSpace after with
        | [] => .unfinished
        | d :: after =>
          if d == byte ',' then readFields (bound + 1) 1 [(utf8 "code", value)] after
          else if d == byte '\x7d' then .done (.object [(utf8 "code", value)]) after
          else .malformed := by
    rw [readFields]
    rfl
  rw [hobject, hfirst, hfields, hstring]
  cases readString (t.length + 1) [] t with
  | done code after => rfl
  | malformed => rfl
  | unfinished => rfl

/-- The text of a program is read up to the quote behind it. -/
theorem readString_code (h : isUtf8 code = true) (t : Bytes) :
    readString ((escapedText code ++ byte '"' :: t).length + 1) []
      (escapedText code ++ byte '"' :: t) = .done code t := by
  refine readString_escaped h ?_ _
  rw [List.length_append]
  omega

/-- The whole body is read as the program. -/
theorem readFirst_codeBody (h : isUtf8 code = true) (t : Bytes) :
    readFirst (codeBody code ++ t) = .done (.object [(utf8 "code", .string code)]) t := by
  obtain ⟨bound, hbound⟩ :
      ∃ bound, 4 * (codeBody code ++ t).length + 4 = bound + 4 := ⟨_, rfl⟩
  have hsplit : codeBody code ++ t =
      bodyHead ++ (escapedText code ++ byte '"' :: byte '\x7d' :: t) := by
    rw [codeBody, List.append_assoc, List.append_assoc]
    rfl
  have hvalue : readValue (bound + 4) 0 (codeBody code ++ t) =
      .done (.object [(utf8 "code", .string code)]) t := by
    rw [hsplit, readValue_bodyHead, readString_code h]
    rfl
  unfold readFirst
  rw [hbound, hvalue]
  rfl

/-- No part of the head is a whole document. -/
theorem readFirst_unfinished_bodyHead {t : Bytes} (h : t <+: bodyHead) :
    readFirst t = .unfinished := by
  have hall : ∀ k < 10, (readFirst (bodyHead.take k) matches .unfinished) = true := by
    decide +kernel
  have hlen : t.length < 10 := Nat.lt_succ_of_le h.length_le
  have ht := hall t.length hlen
  rw [← List.prefix_iff_eq_take.1 h] at ht
  cases hread : readFirst t with
  | unfinished => rfl
  | done p rest => simp [hread] at ht
  | malformed => simp [hread] at ht

/-- Nothing that ends before the body does is a whole document. -/
theorem readFirst_unfinished {t : Bytes} (h : t <+: codeBody code) (hne : t ≠ codeBody code)
    (hcode : isUtf8 code = true) : readFirst t = .unfinished := by
  rcases List.prefix_or_prefix_of_prefix h (List.prefix_append _ _) with hhead | ⟨u, rfl⟩
  · exact readFirst_unfinished_bodyHead hhead
  · have hrest : u <+: escapedText code ++ bodyTail := (List.prefix_append_right_inj _).1 h
    obtain ⟨bound, hbound⟩ : ∃ bound, 4 * (bodyHead ++ u).length + 4 = bound + 4 := ⟨_, rfl⟩
    have hvalue : readValue (bound + 4) 0 (bodyHead ++ u) = .unfinished := by
      rw [readValue_bodyHead]
      rcases List.prefix_or_prefix_of_prefix hrest (List.prefix_append _ _) with htext | ⟨v, rfl⟩
      · rw [readString_unfinished htext]
        rfl
      · have htail : v <+: bodyTail := (List.prefix_append_right_inj _).1 hrest
        rcases v with _ | ⟨b, v⟩
        · rw [List.append_nil, readString_unfinished (List.prefix_refl _)]
          rfl
        · -- Only the closing brace can be missing.
          obtain ⟨rfl, hbrace⟩ := List.cons_prefix_cons.1 htail
          have hv : v = [] := by
            rcases List.prefix_cons_iff.1 hbrace with hv | ⟨w, rfl, hw⟩
            · exact hv
            · rw [List.prefix_nil.1 hw] at hne
              exact absurd rfl hne
          subst hv
          show (readString ((escapedText code ++ [byte '"']).length + 1) []
            (escapedText code ++ [byte '"'])).andThen _ = _
          rw [readString_code hcode]
          rfl
    unfold readFirst
    rw [hbound, hvalue]

/-! ## The limit on bodies -/

/-- The body is read exactly if it keeps to the limit, and is too large otherwise. -/
theorem readBody_codeBody (h : isUtf8 code = true) (limit : Nat) :
    readBody limit (codeBody code) =
      if limit < (codeBody code).length then .error .tooLarge else .ok { code } := by
  unfold readBody
  by_cases hcut : limit < (codeBody code).length
  · have hne : (codeBody code).take limit ≠ codeBody code := by
      intro heq
      have hlen := congrArg List.length heq
      rw [List.length_take] at hlen
      omega
    simp only [hcut, if_true, readFirst_unfinished (List.take_prefix _ _) hne h]
  · simp only [hcut, if_false, readFirst_codeBody h]
    rfl

/-! ## Answers -/

/-- Running a program is never refused for its size. -/
theorem not_saysTooLarge_runProgram (runId id : Bytes) (req : RunRequest) (s : State) :
    ¬ (p.runProgram runId id req s).1.SaysTooLarge := by
  unfold runProgram Handled.SaysTooLarge
  dsimp only
  have hfinished : (200 : Nat) ≠ 413 := by decide
  have hfailed : (422 : Nat) ≠ 413 := by decide
  have hinternal : (500 : Nat) ≠ 413 := by decide
  generalize (p.runner runId id).run _ _ _ _ = ran
  obtain ⟨ending, w⟩ := ran
  cases ending with
  | finished report => exact hfinished
  | failed report d => exact hfailed
  | refused why => exact hinternal
  | stuck why => exact not_false
  | unfinished why => exact hinternal

/-- A program that fits is refused for its size if its body is not read whole, and not otherwise. -/
theorem saysTooLarge_serveRun (hfits : p.Fits code) (id : Bytes) (s : State) :
    (p.serveRun id (codeBody code) s).1.SaysTooLarge ↔ p.bodyLimit < (codeBody code).length := by
  unfold serveRun
  rw [readBody_codeBody hfits.isUtf8]
  by_cases hcut : p.bodyLimit < (codeBody code).length
  · simp only [hcut, if_true, iff_true]
    rfl
  · have hsource : ¬ p.maxSourceBytes.toInt < code.length := Int.not_lt.2 hfits.length_le
    simp only [hcut, if_false, iff_false, hfits.notBlank, Bool.false_eq_true, hsource]
    cases p.runId (s.runs + 1) with
    | none => exact not_false
    | some runId => exact not_saysTooLarge_runProgram runId id _ _

/-- What is around the service answers with that status only if the service does. -/
theorem status_serve {r : Request} (hr : AsksToRun r) (s : State) :
    (p.serve r s).1.status = 413 ↔
      (s.gate.letIn (Gate.clientKey r.remote)).1 = true ∧
        (p.serveRun (p.requestId r) r.body
          { s with gate := (s.gate.letIn (Gate.clientKey r.remote)).2 }).1.SaysTooLarge := by
  unfold serve
  generalize s.gate.letIn (Gate.clientKey r.remote) = answer
  obtain ⟨admitted, gate⟩ := answer
  cases admitted with
  | false =>
    have hstopped : (429 : Nat) ≠ 413 := by decide
    exact ⟨fun h => absurd h hstopped, fun h => absurd h.1 Bool.false_ne_true⟩
  | true =>
    unfold serveAdmitted recover
    dsimp only
    rw [share_of_asksToRun hr]
    generalize p.serveRun (p.requestId r) r.body { s with gate } = handled
    obtain ⟨answer, t⟩ := handled
    cases answer with
    | reply reply => exact ⟨fun h => ⟨rfl, h⟩, fun h => h.2⟩
    | crash reason =>
      have hinternal : (500 : Nat) ≠ 413 := by decide
      exact ⟨fun h => absurd h hinternal, fun h => h.2.elim⟩

/-- A program that fits is refused for its size exactly if it is let in and its body is not read
whole. -/
theorem status_serve_of_fits (hfits : p.Fits code) {r : Request} (hr : AsksToRun r)
    (hbody : r.body = codeBody code) (s : State) :
    (p.serve r s).1.status = 413 ↔
      (s.gate.letIn (Gate.clientKey r.remote)).1 = true ∧
        p.bodyLimit < (codeBody code).length := by
  rw [status_serve hr, hbody, saysTooLarge_serveRun hfits]

/-- A program that fits, in a body that says nothing else, is refused for its size exactly if the
request is let in and the body is longer than the limit on bodies: four times the limit on programs
and 4096, wrapped around in 64 bits. So it is not refused where that limit does not wrap around and
the escapes take no more than what it leaves beyond the program. -/
theorem programs_are_refused_for_their_bodies (hfits : p.Fits code) {r : Request}
    (hr : AsksToRun r) (hbody : r.body = codeBody code) (s : State) :
    let escapes := code.countP isMarked + 5 * code.countP isControl
    let limit := 4 * p.maxSourceBytes.toInt + 4096
    ((p.serve r s).1.status = 413 ↔
      (s.gate.letIn (Gate.clientKey r.remote)).1 = true ∧
        max 0 (limit.bmod (2 ^ 64)) < code.length + escapes + 11) ∧
    (limit < 2 ^ 63 → escapes ≤ 3 * code.length + 4085 → (p.serve r s).1.status ≠ 413) := by
  intro escapes limit
  have hlength : (codeBody code).length = code.length + escapes + 11 := by
    rw [length_codeBody, Nat.add_assoc code.length]
  have hiff := status_serve_of_fits hfits hr hbody s
  constructor
  · rw [hiff, hlength, ← bodyLimit_eq]
    norm_cast
  · intro hlimit hescapes hstatus
    have hpos : 0 < p.maxSourceBytes.toInt := Int64.lt_iff_toInt_lt.1 hfits.positive
    have hexact := bodyLimit_eq_of_lt hpos hlimit
    have hlarge := (hiff.1 hstatus).2
    have hfit := hfits.length_le
    omega

/-- The request that a client without a name sends to run a program. -/
def runRequest (code : Bytes) : Request where
  method := utf8 "POST"
  target := { written := utf8 "/api/run", path := utf8 "/api/run" }
  body := codeBody code

theorem asksToRun_runRequest (code : Bytes) : AsksToRun (runRequest code) := by
  have hmatched : Route.matched (runRequest code) = utf8 "/api/run" := by
    show Route.matched (runRequest []) = _
    decide +kernel
  exact ⟨rfl, rfl, hmatched, by rw [hmatched]; decide +kernel⟩

/-- A program of a quote and a tab, under the least limit it fits. -/
theorem quote_and_tab_are_taken :
    let p : Playground := { maxSourceBytes := 2 }
    let code := utf8 "\"\t"
    p.Fits code ∧ AsksToRun (runRequest code) ∧ (runRequest code).body = codeBody code ∧
      (((p.serve (runRequest code) {}).1.status = 413 ↔
        (Gate.wide.letIn (Gate.clientKey [])).1 = true ∧ max 0 ((4104 : Int).bmod (2 ^ 64)) < 19) ∧
      (p.serve (runRequest code) {}).1.status ≠ 413) := by
  intro p code
  have hfits : p.Fits code := ⟨by decide, by decide, by decide, by decide⟩
  have hr := asksToRun_runRequest code
  obtain ⟨hiff, htaken⟩ := programs_are_refused_for_their_bodies hfits hr rfl {}
  exact ⟨hfits, hr, rfl, hiff, htaken (by decide) (by decide)⟩

/-- There are programs that fit and are refused for their size: a short one where the limit on
programs is so large that the limit on bodies wraps around, and one with very many line ends, each
of which takes six bytes. -/
theorem programs_that_fit_are_refused :
    let wrapped : Playground := { maxSourceBytes := 2305843009213693952 }
    let short := utf8 "exit 0;"
    let narrow : Playground := { maxSourceBytes := 2100 }
    let long := utf8 "exit 0;" ++ List.replicate 2093 10
    (wrapped.Fits short ∧ (wrapped.serve (runRequest short) {}).1.status = 413) ∧
      narrow.Fits long ∧ (narrow.serve (runRequest long) {}).1.status = 413 := by
  intro wrapped short narrow long
  have hshort : wrapped.Fits short := ⟨by decide, by decide, by decide, by decide⟩
  have hlong : narrow.Fits long :=
    ⟨by decide, by decide +kernel, by decide +kernel, by decide +kernel⟩
  have hwrapped : wrapped.bodyLimit < (codeBody short).length := by decide
  have hcoded : narrow.bodyLimit < (codeBody long).length := by
    rw [length_codeBody]
    decide +kernel
  have hiff := status_serve_of_fits hshort (asksToRun_runRequest short) rfl {}
  have hiff' := status_serve_of_fits hlong (asksToRun_runRequest long) rfl {}
  exact ⟨⟨hshort, hiff.2 ⟨rfl, hwrapped⟩⟩, hlong, hiff'.2 ⟨rfl, hcoded⟩⟩

end Playground
end Scriptlet
