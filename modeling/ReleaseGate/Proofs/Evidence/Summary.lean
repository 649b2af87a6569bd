import ReleaseGate.Evidence.Summary
import ReleaseGate.Proofs.Binary64.Message
import ReleaseGate.Proofs.Scoring.Figures
import ReleaseGate.Time.Epoch

/-!
# What a summary shows of the components

The table of components has one row per component. Names are copied as they are, so a name with a
line feed takes several lines and can look like several rows. As long as no name holds the end of a
row that the other summary has, equal summaries show the same names and frequencies.

* `rowEnd`: what ends a row, behind the name.
* `headLines`: the lines above the rows, always as many.
* `shown_eq_of_rows_eq`: rows are taken apart from the front.
* `summary_faithful`: equal summaries, and the lines of the table.
-/

namespace ReleaseGate

/-! ## One row -/

/-- What ends the row of a component, behind its name. -/
def rowEnd (frequency : Binary64) : List Char :=
  ' ' :: '|' :: ' ' :: (frequency.text.toList ++ [' ', '|', '\n'])

theorem not_isNumeralChar_blank : ¬ IsNumeralChar ' ' := by
  unfold IsNumeralChar
  decide

theorem not_isNumeralChar_bar : ¬ IsNumeralChar '|' := by
  unfold IsNumeralChar
  decide

theorem not_isNumeralChar_lineFeed : ¬ IsNumeralChar '\n' := by
  unfold IsNumeralChar
  decide

theorem toList_componentRow (score : ComponentScore) :
    (componentRow score).toList = '|' :: ' ' :: (score.name.toList ++ rowEnd score.frequency) := by
  simp [componentRow, line, rowEnd]

/-- What stands before the first of a mark is known from the whole. -/
theorem append_cons_inj_of_notMem {mark : Char} {a b s t : List Char} (ha : mark ∉ a)
    (hb : mark ∉ b) (h : a ++ mark :: s = b ++ mark :: t) : a = b ∧ s = t := by
  have hsplit := congrArg (List.splitOn mark) h
  rw [List.splitOn_append_cons_self_of_not_mem ha,
    List.splitOn_append_cons_self_of_not_mem hb] at hsplit
  obtain ⟨rfl, -⟩ := List.cons.inj hsplit
  exact ⟨rfl, (List.cons.inj (List.append_cancel_left h)).2⟩

section Ends

variable {x y : Binary64}

theorem notMem_text_of_isFinite (hx : x.isFinite = true) {c : Char} (hc : ¬ IsNumeralChar c) :
    c ∉ x.text.toList :=
  fun hmem => hc ((Binary64.denotes_text hx).isNumeralChar c hmem)

/-- Texts of numbers end at the first blank, so the end of a row tells its number. -/
theorem rowEnd_append_inj (hx : x.isFinite = true) (hy : y.isFinite = true)
    {rest rest' : List Char} (h : rowEnd x ++ rest = rowEnd y ++ rest') : x = y ∧ rest = rest' := by
  have htexts : x.text.toList ++ ' ' :: ('|' :: '\n' :: rest) =
      y.text.toList ++ ' ' :: ('|' :: '\n' :: rest') := by
    simpa [rowEnd] using h
  obtain ⟨htext, hrest⟩ := append_cons_inj_of_notMem
    (notMem_text_of_isFinite hx not_isNumeralChar_blank)
    (notMem_text_of_isFinite hy not_isNumeralChar_blank) htexts
  refine ⟨Binary64.text_injective hx hy htext, ?_⟩
  simpa using hrest

/-- No row's end starts within the marks behind a number. -/
theorem rowEnd_append_ne_of_suffix_marks {overlap rest rest' : List Char} (hoverlap : overlap ≠ [])
    (hsuffix : overlap <:+ [' ', '|', '\n']) : rowEnd y ++ rest' ≠ overlap ++ rest := by
  intro hrest
  simp only [List.suffix_cons_iff, List.suffix_nil] at hsuffix
  rcases hsuffix with rfl | rfl | rfl | rfl
  · cases hrest
  · cases hrest
  · cases hrest
  · exact hoverlap rfl

/-- Where a row's end is cut, the part behind the cut does not start as a row's end does, because
numbers hold neither blanks nor bars. -/
theorem not_rowEnd_of_suffix (hx : x.isFinite = true) {before overlap rest rest' : List Char}
    (hbefore : before ≠ []) (hoverlap : overlap ≠ []) (hcut : rowEnd x = before ++ overlap) :
    rowEnd y ++ rest' ≠ overlap ++ rest := by
  intro hrest
  have hblank : ' ' ∉ x.text.toList := notMem_text_of_isFinite hx not_isNumeralChar_blank
  have hbar : '|' ∉ x.text.toList := notMem_text_of_isFinite hx not_isNumeralChar_bar
  unfold rowEnd at hcut
  generalize x.text.toList = text at hcut hblank hbar
  match before, hbefore with
  | [_], _ =>
    -- The part starts with the bar.
    obtain ⟨-, rfl⟩ := List.cons.inj hcut
    cases hrest
  | [_, _], _ =>
    -- The part starts with the blank in front of the number, and a number follows.
    obtain ⟨-, rfl⟩ := List.cons.inj (List.cons.inj hcut).2
    cases text with
    | nil => cases hrest
    | cons c text =>
      have hc : '|' = c := (List.cons.inj (List.cons.inj hrest).2).1
      exact hbar (hc ▸ List.mem_cons_self)
  | _ :: _ :: _ :: before, _ =>
    have htail : text ++ [' ', '|', '\n'] = before ++ overlap :=
      (List.cons.inj (List.cons.inj (List.cons.inj hcut).2).2).2
    rcases List.append_eq_append_iff.mp htail with ⟨cut, -, hmarks⟩ | ⟨cut, rfl, rfl⟩
    · exact rowEnd_append_ne_of_suffix_marks hoverlap ⟨cut, hmarks.symm⟩ hrest
    · cases cut with
      | nil => cases hrest
      | cons c cut =>
        have hc : ' ' = c := (List.cons.inj hrest).1
        exact hblank (List.mem_append_right _ (hc ▸ List.mem_cons_self))

/-- Two ends of rows do not overlap: what comes before the second one holds the first one as a
whole. -/
theorem rowEnd_prefix_of_append (hx : x.isFinite = true) {before rest rest' : List Char}
    (hbefore : before ≠ []) (h : rowEnd x ++ rest = before ++ (rowEnd y ++ rest')) :
    rowEnd x <+: before := by
  rcases List.append_eq_append_iff.mp h with ⟨overlap, rfl, -⟩ | ⟨overlap, hcut, hrest⟩
  · exact List.prefix_append _ _
  · by_cases hoverlap : overlap = []
    · rw [hoverlap, List.append_nil] at hcut
      exact hcut ▸ List.prefix_refl _
    · exact absurd hrest (not_rowEnd_of_suffix hx hbefore hoverlap hcut)

end Ends

/-! ## The rows of a table -/

/-- A component name of one report holds what ends a row of another one. -/
def Report.HoldsRowOf (r s : Report) : Prop :=
  ∃ score ∈ r.components, ∃ other ∈ s.components,
    rowEnd other.frequency <:+: score.name.toList

/-- What a summary shows of a component. -/
def ComponentScore.shown (score : ComponentScore) : String × Binary64 :=
  (score.name, score.frequency)

/-- The rows of a table. -/
def rows (scores : List ComponentScore) : List Char :=
  scores.flatMap fun score => (componentRow score).toList

section Rows

variable {score other : ComponentScore} {rest rest' : List Char}

/-- One of two names that share their start goes on over the end of the row behind the other, unless
they are the same. -/
theorem name_eq_of_append (hx : score.frequency.isFinite = true) {more : List Char}
    (hname : other.name.toList = score.name.toList ++ more)
    (hheld : ¬ rowEnd score.frequency <:+: other.name.toList)
    (h : rowEnd score.frequency ++ rest = more ++ (rowEnd other.frequency ++ rest')) :
    more = [] := by
  by_contra hmore
  obtain ⟨tail, rfl⟩ := rowEnd_prefix_of_append hx hmore h
  exact hheld ⟨score.name.toList, tail, by rw [hname, List.append_assoc]⟩

/-- A row is taken apart from the front. -/
theorem componentRow_append_inj (hx : score.frequency.isFinite = true)
    (hy : other.frequency.isFinite = true)
    (hheld : ¬ rowEnd score.frequency <:+: other.name.toList)
    (hheld' : ¬ rowEnd other.frequency <:+: score.name.toList)
    (h : (componentRow score).toList ++ rest = (componentRow other).toList ++ rest') :
    score.shown = other.shown ∧ rest = rest' := by
  have hrow : score.name.toList ++ (rowEnd score.frequency ++ rest) =
      other.name.toList ++ (rowEnd other.frequency ++ rest') := by
    simpa [toList_componentRow] using h
  rcases List.append_eq_append_iff.mp hrow with ⟨more, hname, hmore⟩ | ⟨more, hname, hmore⟩
  · obtain rfl := name_eq_of_append hx hname hheld hmore
    rw [List.append_nil] at hname
    obtain ⟨hfrequency, hrest⟩ := rowEnd_append_inj hx hy hmore
    exact ⟨Prod.ext (String.toList_injective hname.symm) hfrequency, hrest⟩
  · obtain rfl := name_eq_of_append hy hname hheld' hmore
    rw [List.append_nil] at hname
    obtain ⟨hfrequency, hrest⟩ := rowEnd_append_inj hy hx hmore
    exact ⟨Prod.ext (String.toList_injective hname) hfrequency.symm, hrest.symm⟩

/-- Rows that end at an empty line are taken apart one by one. -/
theorem shown_eq_of_rows_eq {scores others : List ComponentScore}
    (hscores : ∀ score ∈ scores, score.frequency.isFinite = true)
    (hothers : ∀ other ∈ others, other.frequency.isFinite = true)
    (hheld : ∀ score ∈ scores, ∀ other ∈ others, ¬ rowEnd score.frequency <:+: other.name.toList)
    (hheld' : ∀ score ∈ scores, ∀ other ∈ others, ¬ rowEnd other.frequency <:+: score.name.toList)
    (h : rows scores ++ '\n' :: rest = rows others ++ '\n' :: rest') :
    scores.map ComponentScore.shown = others.map ComponentScore.shown := by
  induction scores generalizing others with
  | nil =>
    cases others with
    | nil => rfl
    | cons other others =>
      rw [rows, rows, List.flatMap_cons, toList_componentRow] at h
      cases (List.cons.inj h).1
  | cons score scores ih =>
    cases others with
    | nil =>
      rw [rows, rows, List.flatMap_cons, toList_componentRow] at h
      cases (List.cons.inj h).1
    | cons other others =>
      rw [rows, rows, List.flatMap_cons, List.flatMap_cons, List.append_assoc,
        List.append_assoc] at h
      obtain ⟨hshown, hrest⟩ := componentRow_append_inj (hscores score List.mem_cons_self)
        (hothers other List.mem_cons_self)
        (hheld score List.mem_cons_self other List.mem_cons_self)
        (hheld' score List.mem_cons_self other List.mem_cons_self) h
      rw [List.map_cons, List.map_cons, hshown, ih (fun s hs => hscores s (.tail _ hs))
        (fun o ho => hothers o (.tail _ ho)) (fun s hs o ho => hheld s (.tail _ hs) o (.tail _ ho))
        (fun s hs o ho => hheld' s (.tail _ hs) o (.tail _ ho)) hrest]

end Rows

/-! ## The lines above the table -/

/-- The lines of a summary above the rows of its table. -/
def headLines (r : Report) : List String :=
  ["# Gauge Evidence Bundle", "", "## Frequency Report Summary", "",
    "- **Timestamp**: " ++ r.timestamp.offsetText, "- **Score**: " ++ r.totalScore.text,
    "- **Band**: " ++ r.band.headline,
    "- **Ready for Final Review**: " ++ yesNo r.readyForFinalReview, "", "## Recommendation", "",
    r.recommendation, "", "## Components Analyzed", "", "| Component | Frequency |",
    "|-----------|-----------|"]

/-- The characters of lines. -/
def lineChars (lines : List String) : List Char := lines.flatMap fun text => (line text).toList

/-- What follows the rows of the table: an empty line, and more. -/
theorem exists_toList_summary (r : Report) (log : Option AuditLog) : ∃ after,
    (r.summary log).toList = lineChars (headLines r) ++ (rows r.components ++ '\n' :: after) := by
  refine ⟨(line "## Validation Passes" ++ line "" ++ validationLines r ++
    log.elim "" auditSection ++ line "" ++ line "---" ++
    line ("*Generated by gauge, scoring config v" ++ r.version ++ "*")).toList, ?_⟩
  have hblank : (line "").toList = ['\n'] := rfl
  have hjoin : (String.join (r.components.map componentRow)).toList = rows r.components := by
    rw [String.toList_join, List.flatMap_map, rows]
  unfold Report.summary summaryHead componentTable lineChars headLines
  simp only [String.toList_append, hjoin]
  simp only [List.flatMap_cons, List.flatMap_nil]
  simp only [List.append_assoc, List.append_nil]
  simp only [hblank, List.cons_append, List.nil_append]

section Lines

/-- Lines are split off at their ends. -/
theorem splitOn_lineChars {lines : List String} (h : ∀ text ∈ lines, '\n' ∉ text.toList)
    (rest : List Char) :
    (lineChars lines ++ rest).splitOn '\n' = lines.map String.toList ++ rest.splitOn '\n' := by
  induction lines with
  | nil => rfl
  | cons text lines ih =>
    obtain ⟨htext, hlines⟩ := List.forall_mem_cons.mp h
    have hline : lineChars (text :: lines) ++ rest =
        text.toList ++ '\n' :: (lineChars lines ++ rest) := by
      simp [lineChars, line]
    rw [hline, List.splitOn_append_cons_self_of_not_mem htext, ih hlines]
    rfl

end Lines

theorem notMem_text (x : Binary64) : '\n' ∉ x.text.toList := by
  by_cases hx : x.isFinite = true
  · exact notMem_text_of_isFinite hx not_isNumeralChar_lineFeed
  · cases x with
    | nan => decide
    | number negative rank =>
      have hrank : rank.val = Binary64.topRank := by
        simpa [Binary64.isFinite] using hx
      rw [Binary64.text, RealStyle.write, if_pos hrank]
      cases negative <;> decide

theorem Instant.notMem_offsetText (instant : Instant) : '\n' ∉ instant.offsetText.toList := by
  have hdigits : ∀ {digits : List Char}, Digits digits → '\n' ∉ digits := by
    intro digits h hmem
    exact absurd (h _ hmem) (by decide)
  have hpad : ∀ width n, '\n' ∉ padDigits width n := fun width n =>
    hdigits (digits_padDigits width n)
  have hyear : '\n' ∉ yearText instant.date.year := by
    unfold yearText
    split
    · exact hpad _ _
    · split <;> simp [hpad]
  have hfraction : '\n' ∉ fractionText instant.nano := by
    unfold fractionText
    split
    · simp
    · split
      · simp [hpad]
      · split <;> simp [hpad]
  simp [offsetText, write, hpad, hyear, hfraction]

theorem notMem_headLines {r : Report} (h : r.recommendation = r.band.recommendation) :
    ∀ text ∈ headLines r, '\n' ∉ text.toList := by
  have hband : '\n' ∉ r.band.headline.toList := by
    cases r.band <;> decide
  have hready : '\n' ∉ (yesNo r.readyForFinalReview).toList := by
    cases r.readyForFinalReview <;> decide
  have hrecommendation : '\n' ∉ r.recommendation.toList := by
    rw [h]
    cases r.band <;> decide
  have hscore := notMem_text r.totalScore
  have htime := r.timestamp.notMem_offsetText
  simp only [headLines, List.forall_mem_cons, String.toList_append, List.mem_append, not_or, hband,
    hready, hrecommendation, hscore, htime, not_false_eq_true, and_true, List.not_mem_nil,
    false_imp_iff, implies_true]
  decide

/-- Equal summaries have equal rows, followed by an empty line. -/
theorem rows_eq_of_summary_eq {r s : Report} {log log' : Option AuditLog}
    (hr : r.recommendation = r.band.recommendation)
    (hs : s.recommendation = s.band.recommendation) (h : r.summary log = s.summary log') :
    ∃ after after', rows r.components ++ '\n' :: after = rows s.components ++ '\n' :: after' := by
  obtain ⟨after, hafter⟩ := exists_toList_summary r log
  obtain ⟨after', hafter'⟩ := exists_toList_summary s log'
  refine ⟨after, after', ?_⟩
  have hlines : ((r.summary log).toList).splitOn '\n' = ((s.summary log').toList).splitOn '\n' := by
    rw [h]
  rw [hafter, hafter', splitOn_lineChars (notMem_headLines hr),
    splitOn_lineChars (notMem_headLines hs)] at hlines
  have hrows := (List.append_inj hlines (by simp [headLines])).2
  have hjoin := congrArg (List.intercalate ['\n']) hrows
  rwa [List.intercalate_splitOn, List.intercalate_splitOn] at hjoin

/-! ## The table -/

/-- The lines of the table of components below its head: those from the eighteenth of the summary up
to the next empty one. -/
def tableLines (summary : String) : List (List Char) :=
  ((summary.toList.splitOn '\n').drop 17).takeWhile fun text => !text.isEmpty

/-- The row of a component without its line end. -/
def rowLine (score : ComponentScore) : String :=
  "| " ++ score.name ++ " | " ++ score.frequency.text ++ " |"

theorem tableLines_summary {r : Report} (hr : r.recommendation = r.band.recommendation)
    (hnames : ∀ score ∈ r.components, '\n' ∉ score.name.toList) (log : Option AuditLog) :
    tableLines (r.summary log) = r.components.map fun score => (rowLine score).toList := by
  obtain ⟨after, hafter⟩ := exists_toList_summary r log
  have hrows : rows r.components = lineChars (r.components.map rowLine) := by
    rw [rows, lineChars, List.flatMap_map]
    rfl
  have hlines : ∀ text ∈ r.components.map rowLine, '\n' ∉ text.toList := by
    intro text htext
    obtain ⟨score, hscore, rfl⟩ := List.mem_map.mp htext
    have hname := hnames score hscore
    have hfrequency := notMem_text score.frequency
    simp [rowLine, hname, hfrequency]
  have hempty : ('\n' :: after).splitOn '\n' = [] :: after.splitOn '\n' :=
    List.splitOn_append_cons_self_of_not_mem List.not_mem_nil after
  have hfilled : ∀ text ∈ (r.components.map rowLine).map String.toList,
      (!text.isEmpty) = true := by
    intro text htext
    obtain ⟨_, hline, rfl⟩ := List.mem_map.mp htext
    obtain ⟨score, -, rfl⟩ := List.mem_map.mp hline
    simp [rowLine]
  rw [tableLines, hafter, splitOn_lineChars (notMem_headLines hr), hrows,
    splitOn_lineChars hlines, hempty, List.drop_left' (by simp [headLines]),
    List.takeWhile_append_of_pos hfilled, List.map_map]
  simp

/-! ## Reports of aggregations -/

theorem recommendation_of_aggregate {components : List Component} {validations : List Validation}
    {config : ScoringConfig} {now : Instant} {r : Report}
    (h : aggregate components validations config now = .ok r) :
    r.recommendation = r.band.recommendation := by
  obtain ⟨-, -, rfl⟩ := aggregate_eq_ok.mp h
  rfl

theorem isFinite_of_aggregate {components : List Component} {validations : List Validation}
    {config : ScoringConfig} {now : Instant} {r : Report}
    (h : aggregate components validations config now = .ok r) :
    ∀ score ∈ r.components, score.frequency.isFinite = true := by
  obtain ⟨-, hsound, rfl⟩ := aggregate_eq_ok.mp h
  intro score hscore
  obtain ⟨c, hc, rfl⟩ := List.mem_map.mp hscore
  have hunit : inUnitInterval (fourPlaces c.frequency) = true :=
    inUnitInterval_iff.mpr
      (inOrder_fourPlaces (hsound.sound_components c hc).signalsInOrder.frequency)
  simp only [inUnitInterval, Bool.and_eq_true] at hunit
  exact hunit.1.1

/-- Summaries are faithful to the components as long as no name of one report holds the end of a row
of the other. The table has one line per component, in the order of the report, as long as no name
holds a line feed. -/
theorem summary_faithful {components components' : List Component}
    {validations validations' : List Validation} {config config' : ScoringConfig}
    {now now' : Instant} {r s : Report} (log log' : Option AuditLog)
    (hr : aggregate components validations config now = .ok r)
    (hs : aggregate components' validations' config' now' = .ok s) :
    (¬ r.HoldsRowOf s → ¬ s.HoldsRowOf r → r.summary log = s.summary log' →
      r.components.map ComponentScore.shown = s.components.map ComponentScore.shown) ∧
    ((∀ score ∈ r.components, '\n' ∉ score.name.toList) →
      tableLines (r.summary log) = r.components.map fun score => (rowLine score).toList) := by
  refine ⟨fun hforges hforges' hsummary => ?_, fun hnames => ?_⟩
  · obtain ⟨after, after', hrows⟩ := rows_eq_of_summary_eq (recommendation_of_aggregate hr)
      (recommendation_of_aggregate hs) hsummary
    refine shown_eq_of_rows_eq (isFinite_of_aggregate hr) (isFinite_of_aggregate hs) ?_ ?_ hrows
    · exact fun score hscore other hother hheld => hforges' ⟨other, hother, score, hscore, hheld⟩
    · exact fun score hscore other hother hheld => hforges ⟨score, hscore, other, hother, hheld⟩
  · exact tableLines_summary (recommendation_of_aggregate hr) hnames log

/-- A name without line feeds holds no end of a row. -/
theorem not_holdsRowOf {r : Report} (h : ∀ score ∈ r.components, '\n' ∉ score.name.toList)
    (s : Report) : ¬ r.HoldsRowOf s := by
  rintro ⟨score, hscore, other, -, hheld⟩
  exact h score hscore (hheld.subset (by simp [rowEnd]))

/-- The report of one component with all signals the same, and of nothing else. -/
def reportOfUniform (name : String) (value : Binary64) : Report :=
  report .standard [.uniform name value] [] (.ofClock 0)

/-- Signals that are shown the same, of a name with a bar. -/
theorem summary_faithful_bar :
    aggregate [.uniform "core|edge" 0.5] [] .standard (.ofClock 0) =
        .ok (reportOfUniform "core|edge" 0.5) ∧
      aggregate [.uniform "core|edge" 0.50001] [] .standard (.ofClock 0) =
        .ok (reportOfUniform "core|edge" 0.50001) ∧
      (reportOfUniform "core|edge" 0.5).components.map ComponentScore.shown =
        (reportOfUniform "core|edge" 0.50001).components.map ComponentScore.shown ∧
      tableLines ((reportOfUniform "core|edge" 0.5).summary none) =
        (reportOfUniform "core|edge" 0.5).components.map fun score => (rowLine score).toList := by
  have haccepted : aggregate [.uniform "core|edge" 0.5] [] .standard (.ofClock 0) =
      .ok (reportOfUniform "core|edge" 0.5) :=
    aggregate_of_checks _ ScoringConfig.check_standard (by decide +kernel)
  have haccepted' : aggregate [.uniform "core|edge" 0.50001] [] .standard (.ofClock 0) =
      .ok (reportOfUniform "core|edge" 0.50001) :=
    aggregate_of_checks _ ScoringConfig.check_standard (by decide +kernel)
  have hnames : ∀ value, ∀ score ∈ (reportOfUniform "core|edge" value).components,
      '\n' ∉ score.name.toList := by
    intro value score hscore
    rw [List.mem_singleton.mp hscore]
    show '\n' ∉ "core|edge".toList
    decide
  have hsummary : (reportOfUniform "core|edge" 0.5).summary none =
      (reportOfUniform "core|edge" 0.50001).summary none := by decide +kernel
  obtain ⟨hshown, hlines⟩ := summary_faithful none none haccepted haccepted'
  exact ⟨haccepted, haccepted', hshown (not_holdsRowOf (hnames _) _)
    (not_holdsRowOf (hnames _) _) hsummary, hlines (hnames _)⟩

/-- The report of two components with the best signals there are. -/
def reportOfTwo : Report :=
  report .standard [.uniform "core" 1, .uniform "edge" 1] [] (.ofClock 0)

/-- A name that holds the end of a row and the start of another one: one component is shown in two
rows, in the same text as two components. -/
theorem summary_forgedRow :
    let r := reportOfUniform "core | 1 |\n| edge" 1
    aggregate [.uniform "core | 1 |\n| edge" 1] [] .standard (.ofClock 0) = .ok r ∧
      aggregate [.uniform "core" 1, .uniform "edge" 1] [] .standard (.ofClock 0) =
        .ok reportOfTwo ∧
      r.summary none = reportOfTwo.summary none ∧
      r.components.map ComponentScore.shown ≠ reportOfTwo.components.map ComponentScore.shown ∧
      (tableLines (r.summary none)).length = r.components.length + 1 := by
  intro r
  have hsummary : r.summary none = reportOfTwo.summary none := by decide +kernel
  have hnames : ∀ score ∈ reportOfTwo.components, '\n' ∉ score.name.toList := by
    intro score hscore
    rcases List.mem_cons.mp hscore with rfl | hscore
    · show '\n' ∉ "core".toList
      decide
    · rw [List.mem_singleton.mp hscore]
      show '\n' ∉ "edge".toList
      decide
  have haccepted : aggregate [.uniform "core" 1, .uniform "edge" 1] [] .standard (.ofClock 0) =
      .ok reportOfTwo :=
    aggregate_of_checks _ ScoringConfig.check_standard (by decide +kernel)
  refine ⟨?_, haccepted, hsummary, ?_, ?_⟩
  · exact aggregate_of_checks _ ScoringConfig.check_standard (by decide +kernel)
  · intro hshown
    have hlength := congrArg List.length hshown
    cases hlength
  · rw [hsummary, tableLines_summary (recommendation_of_aggregate haccepted) hnames,
      List.length_map]
    rfl

end ReleaseGate
