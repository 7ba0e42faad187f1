import ExprLang.Proofs.Parse.Depth
import ExprLang.Run
import Mathlib.Data.List.Forall2

/-!
# What a run writes

A run is all or nothing up to the sink.  If nothing can be selected, or if one of the selected
sources cannot be read, cut into tokens, parsed or encoded, then nothing is written; otherwise the
pieces of the output are written one after another for as long as the sink takes them.  All of this
holds whatever outlines of programs look like.

`Source.Shows` and `Source.Faulty` say of a single source what its format asks of it, and
`Source.processAll_cases` is the loop over the sources: it gives all outputs, or the error of a
source that has one.  `Sink.write_bounded` is the loop over the pieces.
-/

namespace ExprLang

/-! ## One source -/

namespace Source

variable {outline : Program → Text} {supply : Supply} {format : Format} {s : Source}

/-- The output of a source whose text can be read and is cut into tokens, or parsed to a program that
can be shown, as the format asks. -/
inductive Shows (outline : Program → Text) (supply : Supply) (format : Format) (s : Source) :
    Text → Prop
  | tokens {text : Text} {ts : List Token} (hread : s.read supply = .ok text)
      (hformat : format = .tokens) (hcut : tokenize text = .ok ts) :
      Shows outline supply format s (tokenTable ts)
  | program {text : Text} {p : Program} {out : Text} (hread : s.read supply = .ok text)
      (hformat : format ≠ .tokens) (hparse : parse text = .ok p)
      (hshow : format.showProgram outline p = .ok out) : Shows outline supply format s out

/-- A source cannot be read, or its text cannot be cut into tokens, or parsed, as the format asks, or
the format is JSON and its program is nested too deeply for that. -/
inductive Faulty (supply : Supply) (format : Format) (s : Source) : Prop
  | unread {e : RunError} (hread : s.read supply = .error e)
  | uncut {text : Text} {e : LexicalError} (hread : s.read supply = .ok text)
      (hformat : format = .tokens) (hcut : tokenize text = .error e)
  | unparsed {text : Text} {fault : Fault LexicalError} (hread : s.read supply = .ok text)
      (hformat : format ≠ .tokens) (hparse : parse text = .error fault)
  | unencoded {text : Text} {p : Program} (hread : s.read supply = .ok text)
      (hformat : format = .json) (hparse : parse text = .ok p)
      (hdepth : Json.depthLimit < p.toJson.nesting)

end Source

/-- A program is shown, unless the format is JSON and the program is nested too deeply. -/
lemma Format.exists_showProgram_eq_ok (outline : Program → Text) {p : Program} {f : Format}
    (h : f = .json → p.toJson.nesting ≤ Json.depthLimit) :
    ∃ out, f.showProgram outline p = .ok out := by
  cases f with
  | json => exact ⟨_, by rw [showProgram, Program.indentedJson_of_le (h rfl)]; rfl⟩
  | sexpr | pretty | tokens => exact ⟨_, rfl⟩

/-- A program that is nested too deeply is not shown as JSON. -/
lemma Format.exists_showProgram_json_eq_error (outline : Program → Text) {p : Program}
    (h : Json.depthLimit < p.toJson.nesting) : ∃ e, Format.json.showProgram outline p = .error e := by
  obtain ⟨e, he⟩ := Program.exists_indentedJson_eq_error h
  exact ⟨e, by rw [showProgram, he]; rfl⟩

namespace Source

variable {outline : Program → Text} {supply : Supply} {format : Format} {s : Source}

/-- A source that can be shown is not faulty. -/
lemma Shows.not_faulty {out : Text} (h : s.Shows outline supply format out) :
    ¬ s.Faulty supply format := by
  rintro (hread | ⟨hread, hformat, hcut⟩ | ⟨hread, hformat, hparse⟩ | ⟨hread, rfl, hparse, hdepth⟩)
  · cases h <;> simp_all
  · cases h <;> simp_all
  · cases h <;> simp_all
  · obtain ⟨e, he⟩ := Format.exists_showProgram_json_eq_error outline hdepth
    cases h <;> simp_all

/-- A source shows one output. -/
lemma Shows.unique {out out' : Text} (h : s.Shows outline supply format out)
    (h' : s.Shows outline supply format out') : out = out' := by
  cases h <;> cases h' <;> simp_all

/-- Reading fails for reasons of its own, never because of the output. -/
lemma ne_write_of_read {e : RunError} (h : s.read supply = .error e) (m : Text) : e ≠ .write m := by
  rintro rfl
  cases s with
  | inline text => cases h
  | input name =>
    simp only [read] at h
    split_ifs at h with _ hname
    · cases h
    · split at h <;> cases h
    · cases hfile : supply.file name <;> simp [hfile, Except.mapError] at h

lemma process_of_read_error {e : RunError} (h : s.read supply = .error e) :
    s.process outline supply format = (.error e, []) := by
  simp [process, h]

lemma process_of_read_ok {text : Text} (h : s.read supply = .ok text) :
    s.process outline supply format = format.render outline s.name text := by
  simp [process, h]

/-- A source is processed to what it shows, or to an error if it is faulty. -/
lemma process_cases (outline : Program → Text) (supply : Supply) (format : Format) (s : Source) :
    (∃ out, s.Shows outline supply format out ∧ (s.process outline supply format).1 = .ok out) ∨
    (s.Faulty supply format ∧
      ∃ e, (∀ m, e ≠ .write m) ∧ (s.process outline supply format).1 = .error e) := by
  cases hread : s.read supply with
  | error e =>
    rw [process_of_read_error hread]
    exact .inr ⟨.unread hread, e, ne_write_of_read hread, rfl⟩
  | ok text =>
    rw [process_of_read_ok hread]
    by_cases hformat : format = .tokens
    · cases hcut : tokenize text with
      | ok ts =>
        refine .inl ⟨tokenTable ts, .tokens hread hformat hcut, ?_⟩
        simp [Format.render, hformat, hcut]
      | error e =>
        refine .inr ⟨.uncut hread hformat hcut, .faulty ⟨s.name, .source e⟩, by simp, ?_⟩
        simp [Format.render, hformat, hcut]
    · cases hparse : parse text with
      | ok p =>
        by_cases hdepth : format = .json → p.toJson.nesting ≤ Json.depthLimit
        · obtain ⟨out, hshow⟩ := Format.exists_showProgram_eq_ok outline hdepth
          refine .inl ⟨out, .program hread hformat hparse hshow, ?_⟩
          rw [Format.render_of_parse hformat outline s.name hparse, hshow]
          rfl
        · obtain ⟨rfl, hdeep⟩ := Classical.not_imp.1 hdepth
          obtain ⟨e, he⟩ := Format.exists_showProgram_json_eq_error outline (not_le.1 hdeep)
          refine .inr ⟨.unencoded hread rfl hparse (not_le.1 hdeep), .unencodable s.name e,
            by simp, ?_⟩
          rw [Format.render_of_parse hformat outline s.name hparse, he]
          rfl
      | error fault =>
        refine .inr ⟨.unparsed hread hformat hparse, .faulty ⟨s.name, fault⟩, by simp, ?_⟩
        simp [Format.render, hformat, compile, hparse]

lemma shows_of_process {out : Text} (h : (s.process outline supply format).1 = .ok out) :
    s.Shows outline supply format out := by
  rcases process_cases outline supply format s with ⟨out', hshows, hout'⟩ | ⟨-, e, -, he⟩
  · rw [hout'] at h
    cases h
    exact hshows
  · rw [he] at h
    cases h

lemma process_of_shows {out : Text} (h : s.Shows outline supply format out) :
    (s.process outline supply format).1 = .ok out := by
  rcases process_cases outline supply format s with ⟨out', hshows, hout'⟩ | ⟨hfaulty, -⟩
  · rw [hout', hshows.unique h]
  · exact absurd hfaulty h.not_faulty

lemma faulty_of_process {e : RunError} (h : (s.process outline supply format).1 = .error e) :
    s.Faulty supply format ∧ ∀ m, e ≠ .write m := by
  rcases process_cases outline supply format s with ⟨out, -, hout⟩ | ⟨hfaulty, e', hwrite, he'⟩
  · rw [hout] at h
    cases h
  · rw [he'] at h
    cases h
    exact ⟨hfaulty, hwrite⟩

/-! ## All sources -/

/-- An output is put in front of those of the sources behind. -/
lemma processAll_cons_of_ok {ss : List Source} {out : Text}
    (h : (s.process outline supply format).1 = .ok out) :
    (processAll outline supply format (s :: ss)).1 =
      (processAll outline supply format ss).1.map (out :: ·) := by
  cases hs : s.process outline supply format with
  | mk result events =>
    obtain rfl : result = .ok out := by simpa [hs] using h
    simp [processAll, hs]

/-- An error keeps the sources behind from being processed. -/
lemma processAll_cons_of_error {ss : List Source} {e : RunError}
    (h : (s.process outline supply format).1 = .error e) :
    (processAll outline supply format (s :: ss)).1 = .error e := by
  cases hs : s.process outline supply format with
  | mk result events =>
    obtain rfl : result = .error e := by simpa [hs] using h
    simp [processAll, hs]

/-- Sources are processed to all of their outputs, with all of their events, or to the error of one
of them. -/
lemma processAll_cases (outline : Program → Text) (supply : Supply) (format : Format)
    (ss : List Source) :
    (∃ outs, List.Forall₂ (fun s out => (s.process outline supply format).1 = .ok out) ss outs ∧
      processAll outline supply format ss =
        (.ok outs, ss.flatMap fun s => (s.process outline supply format).2)) ∨
    ∃ s ∈ ss, ∃ e, (s.process outline supply format).1 = .error e ∧
      (processAll outline supply format ss).1 = .error e := by
  induction ss with
  | nil => exact .inl ⟨[], .nil, rfl⟩
  | cons s ss ih =>
    cases hs : s.process outline supply format with
    | mk result events =>
      cases result with
      | error e => exact .inr ⟨s, by simp, e, by rw [hs], processAll_cons_of_error (by rw [hs])⟩
      | ok out =>
        rcases ih with ⟨outs, houts, hall⟩ | ⟨s', hs', e, he, hall⟩
        · refine .inl ⟨out :: outs, .cons (by rw [hs]) houts, ?_⟩
          simp [processAll, hs, hall, Except.map]
        · refine .inr ⟨s', by simp [hs'], e, he, ?_⟩
          rw [processAll_cons_of_ok (by rw [hs]), hall]
          rfl

/-- Sources that are all processed to outputs are not faulty. -/
lemma not_faulty_of_forall₂ {ss : List Source} {outs : List Text}
    (h : List.Forall₂ (fun s out => (s.process outline supply format).1 = .ok out) ss outs)
    (hs : s ∈ ss) :
    ¬ s.Faulty supply format := by
  have hboth := h.imp fun _ _ hout => And.intro (shows_of_process hout).not_faulty hout
  exact ((List.forall₂_and_left _ _).1 hboth).1 s hs

end Source

/-! ## Selection -/

namespace Job

variable {outline : Program → Text} {j : Job} {supply : Supply} {sink : Sink}

/-- The job has no text, and no input either or standard input more than once. -/
def Unselectable (j : Job) : Prop :=
  j.expr = [] ∧ (j.inputs = [] ∨ 2 ≤ j.inputs.count stdinName)

/-- What a job shows if it can: its text whatever its inputs are, or else its inputs. -/
def selection (j : Job) : List Source :=
  if j.expr ≠ [] then [.inline j.expr] else j.inputs.map .input

lemma sources_of_not_unselectable (h : ¬ j.Unselectable) : j.sources = .ok j.selection := by
  simp only [Unselectable, not_and, not_or, not_le] at h
  by_cases hexpr : j.expr = []
  · obtain ⟨hinputs, hcount⟩ := h hexpr
    have hone : ¬ 1 < j.inputs.count stdinName := by omega
    simp [sources, selection, hexpr, hinputs, hone]
  · simp [sources, selection, hexpr]

lemma sources_of_unselectable (h : j.Unselectable) :
    ∃ e, (∀ m, e ≠ .write m) ∧ j.sources = .error e := by
  obtain ⟨hexpr, hinputs⟩ := h
  by_cases hnil : j.inputs = []
  · exact ⟨.noInput, by simp, by simp [sources, hexpr, hnil]⟩
  · have htwice : 1 < j.inputs.count stdinName := hinputs.resolve_left hnil
    exact ⟨.repeatedStdin, by simp, by simp [sources, hexpr, hnil, htwice]⟩

/-! ## Writing -/

lemma runWith_of_sources_error {e : RunError} (h : j.sources = .error e) :
    j.runWith outline supply sink = ⟨[], some e, []⟩ := by
  simp [runWith, h]

lemma runWith_of_sources_ok {ss : List Source} (h : j.sources = .ok ss) :
    j.runWith outline supply sink =
      j.conclude sink ss (Source.processAll outline supply j.shownIn ss).2
        (Source.processAll outline supply j.shownIn ss).1 := by
  simp [runWith, h]

/-- The error of a source is that of the run, and nothing is written. -/
lemma runWith_of_processAll_error {ss : List Source} {e : RunError} (h : j.sources = .ok ss)
    (hall : (Source.processAll outline supply j.shownIn ss).1 = .error e) :
    (j.runWith outline supply sink).error = some e ∧
      (j.runWith outline supply sink).written = [] := by
  rw [runWith_of_sources_ok h, hall]
  exact ⟨rfl, rfl⟩

end Job

/-- A bounded sink takes pieces up to its bound, and fails if there are more. -/
lemma Sink.write_bounded (n : Nat) (failure : Text) (chunks : List Text) :
    (⟨some n, failure⟩ : Sink).write chunks =
      ((chunks.take n).flatten, if n < chunks.length then some (.write failure) else none) := by
  induction chunks generalizing n with
  | nil => simp [Sink.write]
  | cons chunk chunks ih =>
    cases n with
    | zero => simp [Sink.write, Sink.take?]
    | succ n => simp [Sink.write, Sink.take?, ih]

/-- The pieces of an output that stands alone. -/
lemma Job.chunks_zip_of_length_eq_one {ss : List Source} {outs : List Text}
    (hlength : ss.length = outs.length) (hone : ss.length = 1) : chunks (ss.zip outs) = outs := by
  have hzip : (ss.zip outs).length ≤ 1 := by
    rw [List.length_zip]
    omega
  rw [chunks, if_pos hzip, List.map_snd_zip hlength.ge]

/-- The pieces of several outputs. -/
lemma Job.chunks_zip_of_one_lt_length {ss : List Source} {outs : List Text}
    (hlength : ss.length = outs.length) (hmany : 1 < ss.length) :
    chunks (ss.zip outs) =
      (ss.zip outs).flatMap fun (s, out) => [utf8 "# " ++ s.name ++ utf8 "\n", out] := by
  have hzip : ¬ (ss.zip outs).length ≤ 1 := by
    rw [List.length_zip]
    omega
  rw [chunks, if_neg hzip]

/-- A job that can be selected has a source. -/
lemma Job.selection_ne_nil {j : Job} (h : ¬ j.Unselectable) : j.selection ≠ [] := by
  intro hnil
  by_cases hexpr : j.expr = []
  · simp only [selection, hexpr, ne_eq, not_true_eq_false, if_false, List.map_eq_nil_iff] at hnil
    exact h ⟨hexpr, .inl hnil⟩
  · simp [selection, hexpr] at hnil

/-! ## Sums in files -/

/-- Files with sums of ones, of which `b` is nested too deeply to be shown as JSON. -/
def sumFiles : Supply where
  file name :=
    if name = utf8 "a" then .ok (utf8 "1+1;")
    else if name = utf8 "b" then .ok (onesText 9997)
    else if name = utf8 "c" then .ok (utf8 "1;")
    else .error .missing
  stdin := []
  stdinFailure := none
  canceled := false

/-- What is wrong with the sum in `b`. -/
def deepSumError : RunError :=
  .unencodable (utf8 "b") ⟨[utf8 "Program", utf8 "ExpressionStatement"]⟩

namespace Source

lemma shows_sumFiles_a (outline : Program → Text) :
    (input (utf8 "a")).Shows outline sumFiles .sexpr (utf8 "(1+1);\n") := by
  have htext : (Program.onesSum 1).canonical ++ utf8 "\n" = utf8 "(1+1);\n" := by decide +kernel
  exact .program rfl (by decide) (parse_onesText 1) (congrArg Except.ok htext)

lemma shows_sumFiles_c (outline : Program → Text) :
    (input (utf8 "c")).Shows outline sumFiles .sexpr (utf8 "1;\n") := by
  have htext : (Program.onesSum 0).canonical ++ utf8 "\n" = utf8 "1;\n" := by decide +kernel
  exact .program rfl (by decide) (parse_onesText 0) (congrArg Except.ok htext)

/-- The short sums can be shown as JSON. -/
lemma exists_shows_sumFiles_json (outline : Program → Text) {name : Text}
    (h : name = utf8 "a" ∨ name = utf8 "c") :
    ∃ out, (input name).Shows outline sumFiles .json out := by
  have hdepth {n : ℕ} (hn : n ≤ 1) : (Program.onesSum n).toJson.nesting ≤ Json.depthLimit := by
    have hlimit : 1 + 4 ≤ Json.depthLimit := by decide
    rw [Program.nesting_onesSum]
    omega
  rcases h with rfl | rfl
  · obtain ⟨out, hshow⟩ := Format.exists_showProgram_eq_ok (f := .json) outline
      fun _ => hdepth (n := 1) le_rfl
    exact ⟨out, .program rfl (by decide) (parse_onesText 1) hshow⟩
  · obtain ⟨out, hshow⟩ := Format.exists_showProgram_eq_ok (f := .json) outline
      fun _ => hdepth (n := 0) zero_le_one
    exact ⟨out, .program rfl (by decide) (parse_onesText 0) hshow⟩

/-- The deep sum is refused as JSON. -/
lemma process_sumFiles_b (outline : Program → Text) :
    ((input (utf8 "b")).process outline sumFiles .json).1 = .error deepSumError := by
  have hread : (input (utf8 "b")).read sumFiles = .ok (onesText 9997) := rfl
  rw [process_of_read_ok hread,
    Format.render_of_parse (by decide) outline _ (parse_onesText 9997), Format.showProgram,
    Program.indentedJson, Program.encode_onesSum (by rfl)]
  rfl

/-- The deep sum ends the loop. -/
lemma processAll_sumFiles_json (outline : Program → Text) (ss : List Source) :
    (processAll outline sumFiles .json (.input (utf8 "a") :: .input (utf8 "b") :: ss)).1 =
      .error deepSumError := by
  obtain ⟨out, hfirst⟩ := exists_shows_sumFiles_json outline (.inl rfl)
  rw [processAll_cons_of_ok (process_of_shows hfirst),
    processAll_cons_of_error (process_sumFiles_b outline)]
  rfl

end Source

/-- If nothing can be selected or a selected source is faulty, a run has an error that does not
depend on the sink and is not that of a write, so no write is ever tried.  Otherwise the pieces are
the only output, or each output under the name of its source, and a sink that takes `n` pieces ends
up with the first `n` of them, with an error just when there are more. -/
theorem Job.run_all_or_nothing (outline : Program → Text) (j : Job) (supply : Supply) :
    (j.Unselectable ∨ (∃ s ∈ j.selection, s.Faulty supply j.shownIn) →
      ∃ e, (∀ m, e ≠ .write m) ∧ ∀ sink,
        (j.runWith outline supply sink).error = some e ∧
        (j.runWith outline supply sink).written = []) ∧
    (¬ j.Unselectable → (∀ s ∈ j.selection, ¬ s.Faulty supply j.shownIn) →
      ∃ outs chunks, List.Forall₂ (Source.Shows outline supply j.shownIn) j.selection outs ∧
        (j.selection.length = 1 → chunks = outs) ∧
        (j.selection.length ≠ 1 → chunks = (j.selection.zip outs).flatMap fun (s, out) =>
          [utf8 "# " ++ s.name ++ utf8 "\n", out]) ∧
        ∀ n failure,
          (j.runWith outline supply ⟨some n, failure⟩).written =
            (chunks.take (min n chunks.length)).flatten ∧
          ((j.runWith outline supply ⟨some n, failure⟩).error ≠ none ↔ n < chunks.length)) := by
  by_cases hselect : j.Unselectable
  · obtain ⟨e, hwrite, he⟩ := sources_of_unselectable hselect
    refine ⟨fun _ => ⟨e, hwrite, ?_⟩, fun h => absurd hselect h⟩
    intro sink
    simp [runWith_of_sources_error he]
  have hsources := sources_of_not_unselectable hselect
  have hselected := Source.processAll_cases outline supply j.shownIn j.selection
  refine ⟨?_, ?_⟩
  · intro h
    obtain ⟨s, hs, hfaulty⟩ := h.resolve_left hselect
    rcases hselected with ⟨outs, houts, -⟩ | ⟨s', -, e, he, hall⟩
    · exact absurd hfaulty (Source.not_faulty_of_forall₂ houts hs)
    · exact ⟨e, (Source.faulty_of_process he).2,
        fun sink => runWith_of_processAll_error hsources hall⟩
  · intro _ hsound
    rcases hselected with ⟨outs, houts, hall⟩ | ⟨s, hs, e, he, -⟩
    · have hlength : j.selection.length = outs.length := houts.length_eq
      have hpos : 0 < j.selection.length := List.length_pos_iff.2 (selection_ne_nil hselect)
      refine ⟨outs, chunks (j.selection.zip outs), houts.imp fun _ _ => Source.shows_of_process,
        chunks_zip_of_length_eq_one hlength, ?_, ?_⟩
      · intro hne
        exact chunks_zip_of_one_lt_length hlength (by omega)
      · intro n failure
        rw [runWith_of_sources_ok hsources, hall, conclude, Sink.write_bounded]
        refine ⟨?_, by simp⟩
        rw [← List.take_eq_take_min]
    · exact absurd (Source.faulty_of_process he).1 (hsound s hs)

/-- Of the sums in two files, a sink with room for three pieces takes the first one and the heading of
the second one.  When one of the files is missing, it takes nothing. -/
theorem Job.run_twoSums :
    let sound : Job := ⟨[], [utf8 "a", utf8 "c"], utf8 "sexpr"⟩
    let faulty : Job := ⟨[], [utf8 "a", utf8 "d"], utf8 "sexpr"⟩
    (¬ sound.Unselectable ∧ (∀ s ∈ sound.selection, ¬ s.Faulty sumFiles sound.shownIn) ∧
      ∀ outline,
        (sound.runWith outline sumFiles ⟨some 3, []⟩).written = utf8 "# a\n(1+1);\n# c\n" ∧
        (sound.runWith outline sumFiles ⟨some 3, []⟩).error ≠ none) ∧
    (∃ s ∈ faulty.selection, s.Faulty sumFiles faulty.shownIn) ∧
      ∀ outline, (faulty.runWith outline sumFiles ⟨some 3, []⟩).written = [] := by
  intro sound faulty
  have hselect : ¬ sound.Unselectable := by
    rintro ⟨-, hinputs | hcount⟩
    · cases hinputs
    · exact absurd hcount (by decide)
  have hsound : ∀ s ∈ sound.selection, ¬ s.Faulty sumFiles sound.shownIn := by
    intro s hs
    have hname : s = .input (utf8 "a") ∨ s = .input (utf8 "c") := by
      simpa [selection, sound] using hs
    rcases hname with rfl | rfl
    · exact (Source.shows_sumFiles_a fun _ => []).not_faulty
    · exact (Source.shows_sumFiles_c fun _ => []).not_faulty
  have hfaulty : ∃ s ∈ faulty.selection, s.Faulty sumFiles faulty.shownIn :=
    ⟨.input (utf8 "d"), by simp [selection, faulty], .unread rfl⟩
  refine ⟨⟨hselect, hsound, fun outline => ?_⟩, hfaulty, fun outline => ?_⟩
  · obtain ⟨outs, chunks, houts, -, hmany, hrun⟩ :=
      (run_all_or_nothing outline sound sumFiles).2 hselect hsound
    have hshown : outs = [utf8 "(1+1);\n", utf8 "1;\n"] := by
      rcases houts with _ | ⟨hfirst, _ | ⟨hsecond, _ | _⟩⟩
      rw [hfirst.unique (Source.shows_sumFiles_a outline),
        hsecond.unique (Source.shows_sumFiles_c outline)]
    subst hshown
    have hchunks := hmany (by decide)
    subst hchunks
    exact ⟨(hrun 3 []).1.trans (by decide +kernel), (hrun 3 []).2.2 (by decide)⟩
  · obtain ⟨e, -, hnothing⟩ := (run_all_or_nothing outline faulty sumFiles).1 (.inr hfaulty)
    exact (hnothing _).2

/-- Two files can be read and parsed, but the sum in the second one is nested too deeply to be shown as
JSON.  So nothing of the first file is written either, and the error is not that of a write, however
much the sink would take. -/
theorem Job.run_deepSum :
    let j : Job := ⟨[], [utf8 "a", utf8 "b"], utf8 "json"⟩
    ¬ j.Unselectable ∧ j.shownIn = .json ∧
      (∀ s ∈ j.selection, ∃ text p, s.read sumFiles = .ok text ∧ parse text = .ok p) ∧
      ∀ outline n failure,
        (j.runWith outline sumFiles ⟨some n, failure⟩).written = [] ∧
        (j.runWith outline sumFiles ⟨some n, failure⟩).error = some deepSumError := by
  intro j
  have hselect : ¬ j.Unselectable := by
    rintro ⟨-, hinputs | hcount⟩
    · cases hinputs
    · exact absurd hcount (by decide)
  refine ⟨hselect, rfl, ?_, ?_⟩
  · intro s hs
    have hname : s = .input (utf8 "a") ∨ s = .input (utf8 "b") := by
      simpa [selection, j] using hs
    rcases hname with rfl | rfl
    · exact ⟨_, _, rfl, parse_onesText 1⟩
    · exact ⟨_, _, rfl, parse_onesText 9997⟩
  · intro outline n failure
    have hall : (Source.processAll outline sumFiles j.shownIn j.selection).1 =
        .error deepSumError := Source.processAll_sumFiles_json outline []
    exact (runWith_of_processAll_error (sources_of_not_unselectable hselect) hall).symm

end ExprLang
