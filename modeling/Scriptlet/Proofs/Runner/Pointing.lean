import Scriptlet.Proofs.Diagnostic.Marker
import Scriptlet.Proofs.Machine.Places
import Scriptlet.Proofs.Runner.Verdict

/-!
# Pointing: diagnostics in the source

Whatever ends a run of a source with a diagnostic, the scanner, the parser, the machine or an output
that refuses a write, the diagnostic is about a span between characters of that source. So it can be
drawn: the line is there to be shown, and the marker stands under the characters in question.
-/

namespace Scriptlet

theorem Loaded.error_ofSource {source : Bytes} {d : Diagnostic}
    (h : Loaded.ofSource source = .error d) : Program.ofSource source = .error d := by
  unfold Loaded.ofSource at h
  unfold Program.ofSource
  cases hlex : Token.lex source with
  | error d' =>
    rw [hlex] at h
    cases h
    rfl
  | ok tokens =>
    rw [hlex] at h
    cases hparse : Program.parse tokens with
    | error d' =>
      simp only [hparse] at h
      cases h
      exact hparse
    | ok program => simp only [hparse] at h; cases h

theorem Diagnostic.Refusal.on_boundary {d : Diagnostic} (h : d.Refusal) (source : Bytes) :
    d.span.On source.Boundary := by
  obtain ⟨reason, rfl⟩ := h
  exact ⟨0, 0, rfl, Nat.le_refl 0, .zero source, .zero source⟩

namespace Runner

variable {source : Bytes} {report : Report} {d : Diagnostic}

theorem on_boundary_of_perform {loaded : Loaded} (h : Loaded.ofSource source = .ok loaded)
    (e : Runner) (mode : RunMode) (name text : Bytes) (begun : Report) (w : Surface)
    (hfailed : (e.perform mode name text loaded begun w).1 = .failed report d) :
    d.span.On source.Boundary := by
  have hnodes := (Program.on_boundary_of_ofSource source).1 _ (Loaded.program_ofSource h)
  have hfault : ∀ d', (e.execute loaded.program w).1 = some (.fault d') →
      d'.span.On source.Boundary := by
    intro d' hd'
    obtain ⟨n, hrun⟩ := exists_run_of_execute hd'
    exact Machine.on_of_run (.zero source) hnodes rfl hrun
  unfold perform conclude at hfailed
  generalize e.execute loaded.program w = ran at hfailed hfault
  obtain ⟨halt, steps, u⟩ := ran
  cases halt with
  | some halt =>
    cases halt with
    | fault d' => cases hfailed; exact hfault d rfl
    | exit code | stuck | outOfFuel => cases hfailed
  | none =>
    dsimp only at hfailed
    split at hfailed
    · cases hfailed
    · rename_i d' v htrailer
      cases hfailed
      exact ((refusal.trailer e mode _).of_error htrailer).on_boundary source

theorem on_boundary_of_run {sources : List Bytes} (hd : Store.Distinct sources)
    (hs : source ∈ sources) {w : Surface} (hw : w.Honest sources) (e : Runner)
    (mode : Option RunMode) (name : Bytes)
    (hfailed : (e.run mode name source w).1 = .failed report d) :
    d.span.On source.Boundary := by
  cases hm : RunMode.usable mode with
  | error why =>
    unfold Runner.run at hfailed
    rw [hm] at hfailed
    cases hfailed
  | ok used =>
    have hread := ends_read e used source w
    obtain ⟨cached, store, -, ⟨loaded, u, hr, hrun⟩ | ⟨d', u, hr, hrun⟩⟩ :=
      run_cases hd hs hw e hm name
    · rw [hrun] at hfailed
      unfold proceed at hfailed
      dsimp only at hfailed
      split at hfailed
      · cases hfailed
      · exact on_boundary_of_perform (hread.of_ok hr) e used name source _ _ hfailed
    · rw [hrun] at hfailed
      cases hfailed
      rcases hread.of_error hr with hsource | hrefusal
      · exact (Program.on_boundary_of_ofSource source).2 d (Loaded.error_ofSource hsource)
      · exact hrefusal.on_boundary source

end Runner

/-! ## What is drawn -/

/-- The shown line and, under it, the marker: behind gutters of one width, each on a line of its
own. -/
theorem Notice.exists_render_plain (n : Notice) (name source : Bytes) :
    ∃ above below, n.render .plain name source =
      above ++ utf8 "\n" ++
        (decimal (locate source n.span.start).line ++ utf8 " | " ++
          (locate source n.span.start).text) ++ utf8 "\n" ++
        (List.replicate (decimal (locate source n.span.start).line).length (byte ' ') ++
          utf8 " | " ++ (locate source n.span.start).indent ++
          (locate source n.span.start).carets n.span ++ utf8 " " ++ n.note) ++ utf8 "\n" ++
        below := by
  have hgutter : utf8 " | " = utf8 " " ++ (utf8 "|" ++ utf8 " ") := by decide
  unfold render
  rw [hgutter]
  simp only [Paint.apply]
  generalize locate source n.span.start = place
  generalize utf8 "\n" = newline
  generalize utf8 " " = space
  generalize utf8 "|" = bar
  let pad := List.replicate (decimal place.line).length (byte ' ')
  refine ⟨utf8 "error[" ++ n.key ++ utf8 "]" ++ (utf8 ": " ++ n.message) ++ newline ++ pad ++
    utf8 "-->" ++ space ++ (if name.isEmpty then anonymousName else name) ++ utf8 ":" ++
    decimal place.line ++ utf8 ":" ++ decimal place.column ++ newline ++ pad ++ space ++ bar,
    pad ++ space ++ bar ++ newline ++ pad ++ space ++ utf8 "=" ++ utf8 " note: " ++ n.note ++
      newline, ?_⟩
  simp only [List.append_assoc, pad]

/-- The offset is in a line of the text, between two of its characters or at an end of it. -/
def Bytes.Divides (s : Bytes) (i : Nat) : Prop :=
  ∃ k, i = s.lineStart i + k ∧ (s.line i).Boundary k

theorem Bytes.Boundary.divides {s : Bytes} {i : Nat} (h : s.Boundary i) : s.Divides i := by
  have hle := lineStart_le h.le
  exact ⟨i - s.lineStart i, by omega, h.in_line⟩

/-- The span lies inside the text, and between characters at both ends. -/
def Span.PointsInto (source : Bytes) (s : Span) : Prop :=
  ∃ start stop : Nat, s = .between start stop ∧ start ≤ stop ∧ stop ≤ source.length ∧
    source.Divides start ∧ source.Divides stop

namespace Location

/-- Everything that is cut out of the source to show the span is there: the part of the line before
the place, the line, and the stretch of the line that the span covers. -/
structure Cuttable (source : Bytes) (span : Span) (l : Location) : Prop where
  before : (l.lineStart : Int) ≤ span.start ∧ span.start ≤ source.length
  shown : l.lineStart + l.text.length ≤ source.length
  covered : ∀ first last : Int, first = min (max span.start l.lineStart) (l.lineStart + l.text.length) →
    last = min span.stop (l.lineStart + l.text.length) → first < last →
    l.lineStart ≤ first ∧ last ≤ l.lineStart + l.text.length

/-- The marker of a span stands under the shown line: blank up to the place, with the tabs of the
line, and then with a caret for each character that the span covers, or one. -/
structure Marked (span : Span) (l : Location) : Prop where
  width : l.indent.length = min (l.column - 1) (glyphCount l.text)
  tabs : ∀ i < l.indent.length, ∃ g, (glyphs l.text)[i]? = some g ∧
    l.indent[i]? = some (if g.char = '\t' then byte '\t' else byte ' ')
  carets : l.carets span =
    List.replicate (max 1 (span.covers l.lineStart (glyphs l.text))) (byte '^')
  close : l.indent.length + (l.carets span).length ≤ glyphCount l.text + 1

theorem cuttable_of_boundary {s : Bytes} {a b : Nat} (ha : s.Boundary a) :
    (locate s a).Cuttable s (.between a b) := by
  have hle : (locate s a).lineStart ≤ a := Bytes.lineStart_le ha.le
  obtain ⟨hend, -, -⟩ := Bytes.shown_spec ha.le
  refine ⟨⟨Int.ofNat_le.2 hle, Int.ofNat_le.2 ha.le⟩, hend, ?_⟩
  intro first last hfirst hlast _
  have hstart : (locate s a).lineStart ≤ (Span.between a b).start := Int.ofNat_le.2 hle
  omega

theorem marked_of_boundary {s : Bytes} {a b : Nat} (ha : s.Boundary a) (hb : s.Boundary b)
    (hab : a ≤ b) : (locate s a).Marked (.between a b) := by
  obtain ⟨hwidth, htabs⟩ := (locate s a).indent_spec
  obtain ⟨hcarets, hclose⟩ := carets_spec ha hb hab
  refine ⟨hwidth, htabs, ?_, ?_⟩
  · unfold carets
    rw [hcarets]
    rfl
  · unfold carets
    rw [List.length_replicate]
    exact hclose

end Location

/-- Every diagnostic points into its source, and is drawn in the right place. Whatever the source is
and whatever ends the run, on a surface with or without a store after any session, the span lies
inside the source and between characters of its lines. All that is cut out of the source for the
plain drawing is there; the drawing shows the line and under it the marker, behind gutters of one
width; and the marker is blank up to the place, with the tabs of the line, has a caret for each
character that the span covers on it, or one, and so goes at most one place beyond the line. -/
theorem diagnostics_point_into_the_source (source : Bytes) (w : Surface) (capacity : Int)
    (uses : List Use) (hd : Store.Distinct (source :: Use.sources uses)) (e : Runner)
    (mode : Option RunMode) (name : Bytes) (report : Report) (d : Diagnostic)
    (hfailed : (e.run mode name source
      (Use.after { w with store := Store.create? capacity } uses)).1 = .failed report d) :
    let place := locate source d.span.start
    let number := decimal place.line
    d.span.PointsInto source ∧ place.Cuttable source d.span ∧ place.Marked d.span ∧
      ∀ shown, ∃ above below, d.notice.render .plain shown source =
        above ++ utf8 "\n" ++ (number ++ utf8 " | " ++ place.text) ++ utf8 "\n" ++
          (List.replicate number.length (byte ' ') ++ utf8 " | " ++ place.indent ++
            place.carets d.span ++ utf8 " " ++ d.notice.note) ++ utf8 "\n" ++ below := by
  intro place number
  have hhonest : (Use.after { w with store := Store.create? capacity } uses).Honest
      (source :: Use.sources uses) :=
    Use.honest_after hd uses (fun s hs => List.mem_cons_of_mem _ hs)
      fun s hs => Store.Honest.create? hs
  obtain ⟨start, stop, hspan, hle, hstart, hstop⟩ :=
    Runner.on_boundary_of_run hd List.mem_cons_self hhonest e mode name hfailed
  have hplace : place = locate source start := by
    show locate source d.span.start = _
    rw [hspan]
    rfl
  refine ⟨⟨start, stop, hspan, hle, hstop.le, hstart.divides, hstop.divides⟩, ?_, ?_,
    fun shown => d.notice.exists_render_plain shown source⟩
  · rw [hplace, hspan]
    exact Location.cuttable_of_boundary hstart
  · rw [hplace, hspan]
    exact Location.marked_of_boundary hstart hstop hle

/-- A text that is divided is marked by one caret for each of its three characters, behind a tab and
six blanks, on a line that ends with a carriage return. -/
theorem divided_text_is_marked :
    let source := utf8 "\tprint(\"é\" / 2);\r\nprint(1);"
    let place := locate source 7
    ∃ report d, (Runner.run {} (some {}) (utf8 "a") source
        (Use.after { store := Store.create? 4 } [])).1 = .failed report d ∧
      d.span = .between 7 11 ∧ d.span.PointsInto source ∧ place.Marked d.span ∧
      place.indent ++ place.carets d.span = utf8 "\t      ^^^" := by
  intro source place
  have hspan : (match (Runner.run {} (some {}) (utf8 "a") source
      (Use.after { store := Store.create? 4 } [])).1 with
    | .failed _ d => some d.span
    | _ => none) = some (.between 7 11) := by decide +kernel
  have hd : Store.Distinct (source :: Use.sources []) := by
    intro a ha b hb _
    rw [List.mem_singleton.1 ha, List.mem_singleton.1 hb]
  cases hrun : (Runner.run {} (some {}) (utf8 "a") source
      (Use.after { store := Store.create? 4 } [])).1 with
  | failed report d =>
    rw [hrun] at hspan
    have hplace : d.span = .between 7 11 := Option.some.inj hspan
    obtain ⟨hpoints, -, hmarked, -⟩ := diagnostics_point_into_the_source source {} 4 [] hd {}
      (some {}) (utf8 "a") report d hrun
    rw [hplace] at hpoints hmarked
    refine ⟨report, d, rfl, hplace, hplace ▸ hpoints, hplace ▸ hmarked, ?_⟩
    rw [hplace]
    decide +kernel
  | refused | finished | stuck | unfinished => rw [hrun] at hspan; cases hspan

end Scriptlet
