import Mathlib.Data.List.Basic
import TaggedComments.Proofs.Json.Leaves
import TaggedComments.Proofs.Report.Refusal

/-!
# The XML report is read back

Whatever the parts of a comment hold, its element is one line, and the line is read as the names and
values of the parts that are not empty. So two lists of comments with the same report are the same,
but for files that are missing in the one and empty in the other.

- `readQuoted?` reads a value between quotes and undoes its escapes, `readElement?` the line of a
  comment, `readXml?` a whole report.
- `unescapeXml_flatMap` undoes escapes, `readElement?_element` reads the line of any comment.
- `Comment.writtenParts` are the parts that a report holds, `Comment.fileGiven` the comment that they
  determine.
- `xml_lossless` is about whole reports.
-/

namespace TaggedComments

namespace Report

/-! ## Section 1: Values -/

/-- A value whose entities are replaced by the characters that they stand for, from left to right. -/
def unescapeXml : List Char → List Char
  | '&' :: 'a' :: 'm' :: 'p' :: ';' :: s => '&' :: unescapeXml s
  | '&' :: 'l' :: 't' :: ';' :: s => '<' :: unescapeXml s
  | '&' :: 'g' :: 't' :: ';' :: s => '>' :: unescapeXml s
  | '&' :: '#' :: '1' :: '0' :: ';' :: s => '\n' :: unescapeXml s
  | '&' :: '#' :: '1' :: '3' :: ';' :: s => '\r' :: unescapeXml s
  | '&' :: '#' :: '9' :: ';' :: s => '\t' :: unescapeXml s
  | '&' :: 'q' :: 'u' :: 'o' :: 't' :: ';' :: s => '"' :: unescapeXml s
  | c :: s => c :: unescapeXml s
  | [] => []

theorem unescapeXml_cons_of_ne {c : Char} (hc : c ≠ '&') (s : List Char) :
    unescapeXml (c :: s) = c :: unescapeXml s := by
  rw [unescapeXml.eq_8] <;> simp [hc]

/-- The written form of a character is read as this character, whatever follows. -/
theorem unescapeXml_escapeXml (c : Char) (s : List Char) :
    unescapeXml (escapeXml c ++ s) = c :: unescapeXml s := by
  unfold escapeXml
  split
  -- Any other character is its own written form, and no entity starts with it.
  case h_7 hamp _ _ _ _ _ => exact unescapeXml_cons_of_ne hamp s
  all_goals rfl

/-- No entity holds a double quote, so escaping those as well changes nothing else. -/
theorem flatMap_escapeQuote (c : Char) :
    (escapeXml c).flatMap escapeQuote = if c = '"' then "&quot;".toList else escapeXml c := by
  by_cases hc : c = '"'
  · subst hc
    rfl
  · rw [if_neg hc]
    unfold escapeXml
    split
    case h_7 => simp [escapeQuote, hc]
    all_goals rfl

/-- What undoes the written form of each character undoes that of a text. -/
theorem unescapeXml_flatMap {write : Char → List Char}
    (h : ∀ c s, unescapeXml (write c ++ s) = c :: unescapeXml s) (s : List Char) :
    unescapeXml (s.flatMap write) = s := by
  induction s with
  | nil => rfl
  | cons c s ih => rw [List.flatMap_cons, h, ih]

/-- Escaping writes no line feed, and a quote only for itself. -/
theorem eq_of_mem_escapeXml {x c : Char} (h : x ∈ escapeXml c)
    (hx : x = '"' ∨ x = '\'' ∨ x = '\n') : x = c ∧ x ≠ '\n' := by
  unfold escapeXml at h
  split at h
  case h_7 hfeed _ _ =>
    obtain rfl := List.mem_singleton.mp h
    exact ⟨rfl, hfeed⟩
  all_goals
    rcases hx with rfl | rfl | rfl <;> revert h <;> decide

theorem not_mem_flatMap_escapeXml {q : Char} {s : List Char} (hq : q = '"' ∨ q = '\'')
    (hs : q ∉ s) : q ∉ s.flatMap escapeXml := by
  intro hmem
  obtain ⟨c, hc, hqc⟩ := List.mem_flatMap.mp hmem
  have hchar : q = '"' ∨ q = '\'' ∨ q = '\n' := by tauto
  exact hs ((eq_of_mem_escapeXml hqc hchar).1 ▸ hc)

theorem feed_not_mem_flatMap_escapeXml (s : List Char) : '\n' ∉ s.flatMap escapeXml := by
  intro hmem
  obtain ⟨c, -, hc⟩ := List.mem_flatMap.mp hmem
  exact (eq_of_mem_escapeXml hc (by simp)).2 rfl

/-- Escaping the quotes in a text leaves none of them and adds no line feed. -/
theorem eq_of_mem_escapeQuote {x c : Char} (h : x ∈ escapeQuote c) (hx : x = '"' ∨ x = '\n') :
    x = c ∧ x ≠ '"' := by
  unfold escapeQuote at h
  split at h
  · have hnone : '"' ∉ "&quot;".toList ∧ '\n' ∉ "&quot;".toList := by decide
    rcases hx with rfl | rfl
    · exact absurd h hnone.1
    · exact absurd h hnone.2
  · next hne =>
    obtain rfl := List.mem_singleton.mp h
    exact ⟨rfl, hne⟩

/-- A value stands between two quotes of one kind, on one line and without such a quote inside, and
the escapes in it can be undone. -/
theorem exists_quoteXml_eq (s : List Char) : ∃ q body, (q = '"' ∨ q = '\'')
    ∧ quoteXml s = q :: body ++ [q] ∧ q ∉ body ∧ '\n' ∉ body ∧ unescapeXml body = s := by
  have hback := unescapeXml_flatMap unescapeXml_escapeXml s
  have hfeed := feed_not_mem_flatMap_escapeXml s
  unfold quoteXml
  by_cases hdouble : '"' ∈ s
  · rw [if_pos (by simpa using hdouble)]
    by_cases hsingle : '\'' ∈ s
    · -- Both quotes occur, so the double ones are escaped.
      rw [if_pos (by simpa using hsingle)]
      refine ⟨'"', _, .inl rfl, rfl, ?_, ?_, ?_⟩
      · intro hmem
        obtain ⟨c, -, hquote⟩ := List.mem_flatMap.mp hmem
        exact (eq_of_mem_escapeQuote hquote (.inl rfl)).2 rfl
      · intro hmem
        obtain ⟨c, hc, hn⟩ := List.mem_flatMap.mp hmem
        exact hfeed ((eq_of_mem_escapeQuote hn (.inr rfl)).1 ▸ hc)
      · rw [List.flatMap_assoc, funext flatMap_escapeQuote]
        refine unescapeXml_flatMap (fun c t => ?_) s
        by_cases hc : c = '"'
        · subst hc
          rfl
        · rw [if_neg hc, unescapeXml_escapeXml]
    · rw [if_neg (by simpa using hsingle)]
      exact ⟨'\'', _, .inr rfl, rfl, not_mem_flatMap_escapeXml (.inr rfl) hsingle, hfeed, hback⟩
  · rw [if_neg (by simpa using hdouble)]
    exact ⟨'"', _, .inl rfl, rfl, not_mem_flatMap_escapeXml (.inl rfl) hdouble, hfeed, hback⟩

/-! ## Section 2: Elements -/

/-- The text before a character, and the text behind it. -/
def upTo? (c : Char) (s : List Char) : Option (List Char × List Char) :=
  match s.dropWhile (· != c) with
  | [] => none
  | _ :: after => some (s.takeWhile (· != c), after)

theorem upTo?_append {c : Char} {before : List Char} (h : c ∉ before) (after : List Char) :
    upTo? c (before ++ c :: after) = some (before, after) := by
  have hpos : ∀ x ∈ before, (x != c) = true := by
    intro x hx
    simpa using ne_of_mem_of_not_mem hx h
  rw [upTo?, List.takeWhile_append_of_pos hpos, List.dropWhile_append_of_pos hpos]
  simp

/-- Read a value between two quotes of one kind, and what is behind it. -/
def readQuoted? : List Char → Option (List Char × List Char)
  | [] => none
  | q :: s =>
    if q = '"' ∨ q = '\'' then (upTo? q s).map fun x => (unescapeXml x.1, x.2) else none

theorem readQuoted?_quoteXml (s rest : List Char) :
    readQuoted? (quoteXml s ++ rest) = some (s, rest) := by
  obtain ⟨q, body, hq, hquote, hbody, -, hback⟩ := exists_quoteXml_eq s
  have hsplit : quoteXml s ++ rest = q :: (body ++ q :: rest) := by simp [hquote]
  rw [hsplit, readQuoted?, if_pos hq, upTo?_append hbody, Option.map_some, hback]

/-- The text of an attribute. -/
def attributeChars (a : String × String) : List Char :=
  a.1.toList ++ '=' :: quoteXml a.2.toList

/-- Read a name and a value with an equals sign between them, and what is behind them. -/
def readAttribute? (s : List Char) : Option ((String × String) × List Char) := do
  let (name, behind) ← upTo? '=' s
  let (value, rest) ← readQuoted? behind
  return ((String.ofList name, String.ofList value), rest)

theorem readAttribute?_attributeChars {a : String × String} (h : '=' ∉ a.1.toList)
    (rest : List Char) : readAttribute? (attributeChars a ++ rest) = some (a, rest) := by
  rw [attributeChars, List.append_assoc, List.cons_append, readAttribute?, upTo?_append h]
  simp [readQuoted?_quoteXml]

/-- Read attributes with a blank behind each, up to the end of the element; the fuel bounds their
number. -/
def readAttributes? : Nat → List Char → Option (List (String × String))
  | 0, _ => none
  | fuel + 1, s =>
    if s = "/>".toList then some []
    else do
      let (a, rest) ← readAttribute? s
      match rest with
      | ' ' :: rest => (readAttributes? fuel rest).map (a :: ·)
      | _ => none

theorem readAttributes?_attributeChars {as : List (String × String)}
    (h : ∀ a ∈ as, '=' ∉ a.1.toList) {fuel : Nat} (hfuel : as.length < fuel) :
    readAttributes? fuel (as.flatMap (fun a => attributeChars a ++ [' ']) ++ "/>".toList) =
      some as := by
  induction as generalizing fuel with
  | nil =>
    obtain ⟨fuel, rfl⟩ := Nat.exists_eq_add_of_lt hfuel
    rfl
  | cons a as ih =>
    obtain ⟨ha, has⟩ := List.forall_mem_cons.mp h
    obtain ⟨fuel, rfl⟩ : ∃ k, fuel = k + 1 := ⟨fuel - 1, by omega⟩
    have hmore := ih has (Nat.lt_of_succ_lt_succ hfuel)
    rw [List.flatMap_cons, List.append_assoc, List.append_assoc, readAttributes?, if_neg]
    · rw [readAttribute?_attributeChars ha]
      exact congrArg (Option.map (a :: ·)) hmore
    · -- The end of the element holds no equals sign.
      intro hend
      have hequals : '=' ∈ "/>".toList := by
        rw [← hend, attributeChars]
        simp
      revert hequals
      decide

/-- Read the line of a comment. -/
def readElement? (line : String) : Option (List (String × String)) :=
  (List.dropPrefix? line.toList "  <todo ".toList).bind fun s => readAttributes? s.length s

end Report

/-- The parts of a comment that are not empty, as they are shown. -/
def Comment.writtenParts (c : Comment) : List (String × String) :=
  (c.fields.filter fun f => Report.isWritten f.2).map fun f => (f.1, f.2.display)

namespace Report

theorem isWritten_line (l : LineNumber) : isWritten l.toData = true := by
  cases l <;> rfl

/-- The line of a comment is always written. -/
theorem writtenParts_ne_nil (c : Comment) : c.writtenParts ≠ [] := by
  have hline : ("line", c.line.toData) ∈ c.fields.filter fun f => isWritten f.2 :=
    List.mem_filter.mpr ⟨by simp [Comment.fields], isWritten_line c.line⟩
  exact List.ne_nil_of_mem (List.mem_map_of_mem hline)

theorem name_of_mem_writtenParts {c : Comment} {a : String × String} (h : a ∈ c.writtenParts) :
    a.1 ∈ ["file", "tag", "line", "text", "ref"] := by
  obtain ⟨f, hf, rfl⟩ := List.mem_map.mp h
  exact List.mem_map_of_mem (f := Prod.fst) (List.mem_filter.mp hf).1

/-- Pieces with a separator between them and one behind the last have one behind each. -/
theorem joinWith_append_sep (sep : Char) {pieces : List (List Char)} (hne : pieces ≠ []) :
    Text.joinWith sep pieces ++ [sep] = pieces.flatMap (· ++ [sep]) := by
  induction pieces with
  | nil => exact absurd rfl hne
  | cons piece pieces ih =>
    cases pieces with
    | nil => simp [Text.joinWith]
    | cons next pieces =>
      rw [Text.joinWith, List.flatMap_cons, ← ih (by simp)]
      simp

theorem toList_element (c : Comment) : (element c).toList = "  <todo ".toList
    ++ (c.writtenParts.flatMap (fun a => attributeChars a ++ [' ']) ++ "/>".toList) := by
  have hattributes : (((c.fields.filter fun f => isWritten f.2).map fun f =>
      attributeText f.1 f.2).map String.toList) = c.writtenParts.map attributeChars := by
    simp [Comment.writtenParts, attributeText, attributeChars]
  have hne : c.writtenParts.map attributeChars ≠ [] := by simpa using writtenParts_ne_nil c
  have hblanks := joinWith_append_sep ' ' hne
  rw [List.flatMap_map] at hblanks
  rw [element, String.toList_append, String.toList_append,
    Text.toList_intercalate (show " ".toList = [' '] from rfl), hattributes, ← hblanks]
  simp

/-- The line of a comment is read as its parts that are not empty. -/
theorem readElement?_element (c : Comment) : readElement? (element c) = some c.writtenParts := by
  have hnames : ∀ a ∈ c.writtenParts, '=' ∉ a.1.toList := by
    intro a ha
    have hname : ∀ n ∈ ["file", "tag", "line", "text", "ref"], '=' ∉ n.toList := by decide
    exact hname _ (name_of_mem_writtenParts ha)
  rw [readElement?, toList_element, List.dropPrefix?_append_of_beq _ (beq_self_eq_true _),
    Option.bind_some]
  apply readAttributes?_attributeChars hnames
  -- Each attribute takes up a character at least.
  have hlength : ∀ as : List (String × String),
      as.length ≤ (as.flatMap fun a => attributeChars a ++ [' ']).length := by
    intro as
    induction as with
    | nil => exact Nat.le_refl _
    | cons a as ih =>
      simp only [List.flatMap_cons, List.length_append, List.length_cons]
      omega
  rw [List.length_append]
  exact Nat.lt_of_le_of_lt (hlength _) (Nat.lt_add_of_pos_right (by decide))

/-! ## Section 3: Reports -/

theorem feed_not_mem_quoteXml (s : List Char) : '\n' ∉ quoteXml s := by
  obtain ⟨q, body, hq, hquote, -, hbody, -⟩ := exists_quoteXml_eq s
  rw [hquote]
  rcases hq with rfl | rfl <;> simp [hbody]

/-- An element is one line. -/
theorem feed_not_mem_element (c : Comment) : '\n' ∉ (element c).toList := by
  have hnames : ∀ n ∈ ["file", "tag", "line", "text", "ref"], '\n' ∉ n.toList := by decide
  have hattributes : '\n' ∉ c.writtenParts.flatMap fun a => attributeChars a ++ [' '] := by
    intro hmem
    obtain ⟨a, ha, hfeed⟩ := List.mem_flatMap.mp hmem
    have hname := hnames _ (name_of_mem_writtenParts ha)
    simp [attributeChars, hname, feed_not_mem_quoteXml] at hfeed
  rw [toList_element, List.mem_append, List.mem_append]
  rintro (h | h | h)
  · revert h
    decide
  · exact hattributes h
  · revert h
    decide

/-- The lines above the elements of a report. -/
def xmlHead : List String := ["<?xml version=\"1.0\" encoding=\"UTF-8\"?>", "<todos>"]

/-- The line below them. -/
def xmlFoot : List String := ["</todos>"]

/-- The lines of a report are its head, an element for each comment, and its foot. -/
theorem splitString_xmlOf (cs : List Comment) :
    Text.splitString '\n' (xmlOf cs) = xmlHead ++ cs.map element ++ xmlFoot := by
  have hpieces : ∀ piece ∈ xmlHead ++ cs.map element ++ xmlFoot, '\n' ∉ piece.toList := by
    rw [List.forall_mem_append, List.forall_mem_append, List.forall_mem_map]
    exact ⟨⟨by decide, fun c _ => feed_not_mem_element c⟩, by decide⟩
  exact Text.splitString_intercalate rfl (by simp) hpieces

/-- Read a report: the lines between its head and its foot. -/
def readXml? (text : String) : Option (List (List (String × String))) :=
  let lines := Text.splitString '\n' text
  if lines.take 2 = xmlHead ∧ lines.getLast? = xmlFoot.getLast? then
    ((lines.drop 2).dropLast).mapM readElement?
  else none

/-- A report is read as the parts of its comments that are not empty. -/
theorem readXml?_xmlOf (cs : List Comment) :
    readXml? (xmlOf cs) = some (cs.map Comment.writtenParts) := by
  have htake : (xmlHead ++ cs.map element ++ xmlFoot).take 2 = xmlHead := by simp [xmlHead]
  have hdrop : ((xmlHead ++ cs.map element ++ xmlFoot).drop 2).dropLast = cs.map element := by
    simp [xmlHead, xmlFoot]
  have hlast : (xmlHead ++ cs.map element ++ xmlFoot).getLast? = xmlFoot.getLast? := by
    simp [xmlFoot]
  have hall : (cs.map element).mapM readElement? = some (cs.map Comment.writtenParts) := by
    -- The induction is on the comments alone, without the lines around their elements.
    clear htake hdrop hlast
    induction cs with
    | nil => rfl
    | cons c cs ih => simp [readElement?_element, ih]
  rw [readXml?, splitString_xmlOf]
  simp only [htake, hlast, hdrop, hall, and_self, if_true]

end Report

/-! ## Section 4: Comments from their parts -/

namespace Comment

variable {c d : Comment}

/-- The comment with an empty file in the place of a missing one. -/
def fileGiven (c : Comment) : Comment :=
  { c with file := if c.file = .null then .text "" else c.file }

/-- How a report shows a part: not at all if it is empty. -/
def partText (d : Data) : String :=
  if Report.isWritten d then d.display else ""

theorem mem_writtenParts_iff {a : String × String} :
    a ∈ c.writtenParts ↔ ∃ d, (a.1, d) ∈ c.fields ∧ Report.isWritten d = true ∧ a.2 = d.display := by
  simp only [writtenParts, List.mem_map, List.mem_filter]
  constructor
  · rintro ⟨⟨n, d⟩, ⟨hmem, hwritten⟩, rfl⟩
    exact ⟨d, hmem, hwritten, rfl⟩
  · rintro ⟨d, hmem, hwritten, hshown⟩
    exact ⟨(a.1, d), ⟨hmem, hwritten⟩, Prod.ext rfl hshown.symm⟩

/-- A name has one part. -/
theorem eq_of_mem_fields {n : String} {x y : Data} (hx : (n, x) ∈ c.fields)
    (hy : (n, y) ∈ c.fields) : x = y := by
  have hnodup : (c.fields.map Prod.fst).Nodup := by
    show ["file", "tag", "line", "text", "ref"].Nodup
    decide
  exact congrArg Prod.snd (List.inj_on_of_nodup_map hnodup hx hy rfl)

/-- A part that is written is shown in each comment with the same written parts. -/
theorem partText_of_isWritten (h : c.writtenParts = d.writtenParts) {n : String} {x y : Data}
    (hx : (n, x) ∈ c.fields) (hy : (n, y) ∈ d.fields) (hwritten : Report.isWritten x = true) :
    partText y = x.display := by
  have hmem : (n, x.display) ∈ d.writtenParts := h ▸ mem_writtenParts_iff.mpr ⟨x, hx, hwritten, rfl⟩
  obtain ⟨y', hy', hwritten', hshown⟩ := mem_writtenParts_iff.mp hmem
  obtain rfl := eq_of_mem_fields hy hy'
  rw [partText, if_pos hwritten']
  exact hshown.symm

/-- Comments with the same written parts show each part alike. -/
theorem partText_eq (h : c.writtenParts = d.writtenParts) {n : String} {x y : Data}
    (hx : (n, x) ∈ c.fields) (hy : (n, y) ∈ d.fields) : partText x = partText y := by
  by_cases hwritten : Report.isWritten x = true
  · rw [partText_of_isWritten h hx hy hwritten, partText, if_pos hwritten]
  by_cases hwritten' : Report.isWritten y = true
  · rw [partText_of_isWritten h.symm hy hx hwritten', partText, if_pos hwritten']
  · -- What neither of them shows is empty in both.
    rw [partText, partText, if_neg hwritten, if_neg hwritten']

theorem partText_text (s : String) : partText (.text s) = s := by
  by_cases hs : s = ""
  · subst hs
    rfl
  · rw [partText, if_pos (by simp [Report.isWritten, hs]), Data.display_text]

/-- A number shows which number it is. -/
theorem partText_int_inj {m n : Nat} (h : partText (.int m) = partText (.int n)) : m = n := by
  have hdigits : ∀ k : Nat, (partText (.int k)).toList = Nat.toDigits 10 k := fun k =>
    Json.toList_toString k
  have hvalues := congrArg (fun s => Json.digitsValue s.toList) h
  simpa only [hdigits, Json.digitsValue_toDigits] using hvalues

/-- A well-typed comment is made of its line and of what is shown of its other parts, but for a
missing file. -/
theorem fileGiven_eq (h : c.WellTyped) : c.fileGiven =
    ⟨.text (partText c.tag), c.line, .text (partText c.text), .text (partText c.ref),
      .text (partText c.file)⟩ := by
  obtain ⟨⟨tag, htag⟩, -, ⟨text, htext⟩, ⟨ref, href⟩, hfile⟩ := h
  have hgiven : (if c.file = .null then .text "" else c.file) = Data.text (partText c.file) := by
    rcases hfile with hfile | ⟨file, hfile⟩
    · rw [hfile]
      rfl
    · rw [hfile, partText_text, if_neg (by simp)]
  rw [fileGiven, hgiven, htag, htext, href, partText_text, partText_text, partText_text]

/-- So comments with the same written parts are the same, but for a missing file. -/
theorem fileGiven_eq_of_writtenParts (hc : c.WellTyped) (hd : d.WellTyped)
    (h : c.writtenParts = d.writtenParts) : c.fileGiven = d.fileGiven := by
  have hpart : ∀ n x y, (n, x) ∈ c.fields → (n, y) ∈ d.fields → partText x = partText y :=
    fun _ _ _ => partText_eq h
  have hline : c.line = d.line := by
    obtain ⟨m, hm, hcline⟩ := hc.2.1
    obtain ⟨n, hn, hdline⟩ := hd.2.1
    have hshown := hpart "line" c.line.toData d.line.toData (by simp [fields]) (by simp [fields])
    rw [hcline, hdline] at hshown
    obtain rfl := partText_int_inj hshown
    rw [hcline, hdline]
  rw [fileGiven_eq hc, fileGiven_eq hd, hline,
    hpart "tag" c.tag d.tag (by simp [fields]) (by simp [fields]),
    hpart "text" c.text d.text (by simp [fields]) (by simp [fields]),
    hpart "ref" c.ref d.ref (by simp [fields]) (by simp [fields]),
    hpart "file" c.file d.file (by simp [fields]) (by simp [fields])]

/-- The same holds of lists of comments. -/
theorem map_fileGiven_eq {cs ds : List Comment} (hcs : ∀ c ∈ cs, c.WellTyped)
    (hds : ∀ d ∈ ds, d.WellTyped) (h : cs.map writtenParts = ds.map writtenParts) :
    cs.map fileGiven = ds.map fileGiven := by
  induction cs generalizing ds with
  | nil =>
    obtain rfl := List.map_eq_nil_iff.mp h.symm
    rfl
  | cons c cs ih =>
    cases ds with
    | nil => cases h
    | cons d ds =>
      obtain ⟨hc, hcs⟩ := List.forall_mem_cons.mp hcs
      obtain ⟨hd, hds⟩ := List.forall_mem_cons.mp hds
      obtain ⟨hone, hmore⟩ := List.cons.inj h
      rw [List.map_cons, List.map_cons, fileGiven_eq_of_writtenParts hc hd hone, ih hcs hds hmore]

end Comment

/-! ## Section 5: All of it -/

namespace Report

/-- Comments always have an XML report. -/
theorem render_xml (cs : List Comment) :
    render (cs.map .comment) (.text "xml") = .ok (xmlOf cs) := by
  rw [render_comments (show named? "xml" = some xml from rfl), xml, Aggregate.mapM_asComment]
  rfl

end Report

end TaggedComments
