import PackageConfig.Proofs.Rules.Variable

/-!
What a CMake initial cache tells of the variables.

`readQuoted` reads a quoted argument as CMake does, its expansion of variables aside. Escaping puts
a backslash in front of exactly the characters that such a reader would not take as they are
(`cmakeEscape_cons`), so that it reads a text back and stops at the quote behind it, whatever
follows (`readQuoted_cmakeEscape`). A line therefore shows its value and where it ends
(`cmakeLine_append_inj`), and two scripts of the same rules are equal only line by line.
-/

namespace PackageConfig.VariableRules

variable {v : VariableRules} {rules : List VariableRule} {table table' : Variables}

/-! ## Quoted texts -/

/-- What a reader finds behind an opening quote: the text up to the first bare quote, where a
character behind a backslash is taken as it is, and what follows that quote. -/
def readQuoted : List Char → Option (List Char × List Char)
  | [] => none
  | '"' :: behind => some ([], behind)
  | '\\' :: c :: rest => (readQuoted rest).map fun (text, behind) => (c :: text, behind)
  | ['\\'] => none
  | c :: rest => (readQuoted rest).map fun (text, behind) => (c :: text, behind)

/-- Doubling the backslashes and then marking the quotes comes to a backslash in front of each. -/
theorem cmakeEscape_cons (c : Char) (cs : List Char) :
    cmakeEscape (c :: cs) =
      (if c = '\\' ∨ c = '"' then ['\\', c] else [c]) ++ cmakeEscape cs := by
  unfold cmakeEscape Text.replaceChars
  rw [List.flatMap_cons, List.flatMap_append]
  congr 1
  by_cases backslash : c = '\\'
  · subst backslash
    decide
  · by_cases quote : c = '"'
    · subst quote
      decide
    · simp [backslash, quote]

theorem readQuoted_cmakeEscape (cs behind : List Char) :
    readQuoted (cmakeEscape cs ++ '"' :: behind) = some (cs, behind) := by
  induction cs with
  | nil => rfl
  | cons c cs ih =>
    rw [cmakeEscape_cons]
    split
    next marked => simp [readQuoted, ih]
    next plain =>
      obtain ⟨noBackslash, noQuote⟩ := not_or.1 plain
      simp [readQuoted, noBackslash, ih]

/-! ## Lines -/

/-- What stands in a line behind the name of the variable. -/
def cmakeSetting : Value → List Char
  | .flag on => (Value.flag on).driverText.toList ++ " CACHE BOOL \"\")\n".toList
  | .text s => '"' :: (cmakeEscape s.toList ++ '"' :: " CACHE STRING \"\")\n".toList)

theorem toList_cmakeLine (name : String) (value : Value) :
    (cmakeLine name value).toList = ("set(" ++ name ++ " ").toList ++ cmakeSetting value := by
  cases value with
  | flag on => simp [cmakeLine, cmakeSetting]
  | text s => simp [cmakeLine, cmakeSetting]

theorem cmakeLine_text (name s : String) :
    cmakeLine name (.text s) = "set(" ++ name ++ " \"" ++
      (String.ofList (cmakeEscape s.toList) ++ "\"" ++ " CACHE STRING \"\")\n") := by
  rw [← String.toList_inj]
  simp [cmakeLine]

/-- A setting shows its value, and where it ends. -/
theorem cmakeSetting_append_inj {a b : Value} {s t : List Char}
    (same : cmakeSetting a ++ s = cmakeSetting b ++ t) : a = b ∧ s = t := by
  cases a with
  | flag on =>
    cases b with
    | flag on' =>
      cases on <;> cases on' <;> simp [cmakeSetting, Value.driverText] at same ⊢
      all_goals exact same
    | text text => cases on <;> simp [cmakeSetting, Value.driverText] at same
  | text text =>
    cases b with
    | flag on' => cases on' <;> simp [cmakeSetting, Value.driverText] at same
    | text text' =>
      simp only [cmakeSetting, List.cons_append, List.append_assoc, List.cons.injEq, true_and]
        at same
      have read := congrArg readQuoted same
      rw [readQuoted_cmakeEscape, readQuoted_cmakeEscape] at read
      obtain ⟨texts, behind⟩ := Prod.mk.inj (Option.some.inj read)
      exact ⟨congrArg Value.text (String.toList_inj.1 texts), List.append_cancel_left behind⟩

theorem cmakeLine_append_inj {name : String} {a b : Value} {s t : List Char}
    (same : (cmakeLine name a).toList ++ s = (cmakeLine name b).toList ++ t) : a = b ∧ s = t := by
  rw [toList_cmakeLine, toList_cmakeLine, List.append_assoc, List.append_assoc] at same
  exact cmakeSetting_append_inj (List.append_cancel_left same)

/-! ## Scripts -/

/-- The script of some rules that stand one after another is the script of the first of them and
then that of the others. -/
theorem cmakeScript_append (v : VariableRules) (front back : List VariableRule)
    (table : Variables) :
    { v with rules := front ++ back }.cmakeScript table =
      { v with rules := front }.cmakeScript table ++
        { v with rules := back }.cmakeScript table :=
  (congrArg String.join List.filterMap_append).trans String.join_append

theorem cmakeScript_singleton (v : VariableRules) {rule : VariableRule} {value : Value}
    (listed : table.get? rule.name = some value) :
    { v with rules := [rule] }.cmakeScript table = cmakeLine (v.driverName rule) value := by
  simp only [cmakeScript, List.filterMap_cons, listed, Option.map_some, List.filterMap_nil,
    String.join_cons, String.join_nil, String.append_empty]
  rfl

/-- Two tables with a variable for each rule have one script only if the variables agree: each
line ends where it shows, so that no text runs into the next one. -/
theorem get?_eq_of_cmakeScript (v : VariableRules)
    (complete : ∀ rule ∈ rules, (table.get? rule.name).isSome)
    (complete' : ∀ rule ∈ rules, (table'.get? rule.name).isSome)
    (same : { v with rules := rules }.cmakeScript table =
      { v with rules := rules }.cmakeScript table') :
    ∀ rule ∈ rules, table.get? rule.name = table'.get? rule.name := by
  induction rules with
  | nil => exact fun rule mem => absurd mem List.not_mem_nil
  | cons rule rest ih =>
    obtain ⟨here, later⟩ := List.forall_mem_cons.1 complete
    obtain ⟨here', later'⟩ := List.forall_mem_cons.1 complete'
    obtain ⟨value, listed⟩ := Option.isSome_iff_exists.1 here
    obtain ⟨value', listed'⟩ := Option.isSome_iff_exists.1 here'
    have first (table : Variables) := cmakeScript_append v [rule] rest table
    rw [List.singleton_append] at first
    rw [first, first, cmakeScript_singleton v listed, cmakeScript_singleton v listed',
      ← String.toList_inj, String.toList_append, String.toList_append] at same
    obtain ⟨rfl, rests⟩ := cmakeLine_append_inj same
    refine List.forall_mem_cons.2 ⟨listed.trans listed'.symm, ?_⟩
    exact ih later later' (String.toList_inj.1 rests)

/-- In a script every text stands between quotes of its own: a reader that starts behind the
opening one reads exactly the text and stops at the closing one, with the rest of its line and the
lines of the other rules before it. So two tables that the rules make, of whatever
configurations, have the same script only if they are the same. -/
theorem cmakeScript_lossless (v : VariableRules) :
    (∀ (table : Variables) (front : List VariableRule) (rule : VariableRule)
        (back : List VariableRule) (s : String), v.rules = front ++ rule :: back →
        table.get? rule.name = some (.text s) →
        ∃ behind, v.cmakeScript table = { v with rules := front }.cmakeScript table ++
            "set(" ++ v.driverName rule ++ " \"" ++ behind ∧
          readQuoted behind.toList = some (s.toList,
            (" CACHE STRING \"\")\n" ++ { v with rules := back }.cmakeScript table).toList)) ∧
      ∀ config linkage table config' linkage' table', v.table config linkage = .ok table →
        v.table config' linkage' = .ok table' →
        (v.cmakeScript table = v.cmakeScript table' ↔ table = table') := by
  constructor
  · intro table front rule back s standing listed
    refine ⟨String.ofList (cmakeEscape s.toList) ++ "\"" ++ (" CACHE STRING \"\")\n" ++
      { v with rules := back }.cmakeScript table), ?_, ?_⟩
    · have whole := cmakeScript_append v front (rule :: back) table
      have line := cmakeScript_append v [rule] back table
      rw [← standing] at whole
      rw [List.singleton_append] at line
      refine whole.trans ?_
      rw [line, cmakeScript_singleton v listed, cmakeLine_text]
      simp only [String.append_assoc]
    · simp only [String.toList_append, String.toList_ofList, List.append_assoc]
      exact readQuoted_cmakeEscape s.toList _
  · intro config linkage table config' linkage' table' made made'
    refine ⟨fun same => ?_, fun same => same ▸ rfl⟩
    have agree := get?_eq_of_cmakeScript v
      (fun rule mem => (isSome_get?_table made).2 (List.mem_map_of_mem mem))
      (fun rule mem => (isSome_get?_table made').2 (List.mem_map_of_mem mem)) same
    refine NameMap.ext_get? fun name => ?_
    by_cases named : name ∈ v.rules.map VariableRule.name
    · obtain ⟨rule, mem, rfl⟩ := List.mem_map.1 named
      exact agree rule mem
    · have missing := mt (isSome_get?_table made).1 named
      have missing' := mt (isSome_get?_table made').1 named
      rw [Option.not_isSome_iff_eq_none] at missing missing'
      rw [missing, missing']

/-- One variable that an option feeds, and one with a text in which a backslash stands in front of
a quote, a line ends and a further line seems to follow. -/
def awkward : VariableRules :=
  ⟨"", [⟨"mode", .option "mode", some "MODE"⟩,
    ⟨"path", .constant (.text "C:\\\"\nset(MODE ON CACHE BOOL \"\")\n\\"), some "PATH"⟩]⟩

/-- The text `OFF` of an option and the switch that its removal leaves are told apart, and the
awkward text is read back in front of the end of its line. -/
theorem cmakeScript_lossless_awkward :
    let path := "C:\\\"\nset(MODE ON CACHE BOOL \"\")\n\\"
    let chosen : Configuration := ⟨.ofList [("mode", .present (.text "OFF"))]⟩
    let removed : Configuration := ⟨.ofList [("mode", .absent (.platformRule "remove mode"))]⟩
    let table : Variables := .ofList [("mode", .text "OFF"), ("path", .text path)]
    let table' : Variables := .ofList [("mode", .flag false), ("path", .text path)]
    awkward.table chosen .static = .ok table ∧ awkward.table removed .static = .ok table' ∧
      awkward.cmakeScript table ≠ awkward.cmakeScript table' ∧
      table.get? "path" = some (.text path) ∧
      ∃ before behind, awkward.cmakeScript table = before ++ "set(" ++ "PATH" ++ " \"" ++ behind ∧
        readQuoted behind.toList = some (path.toList, " CACHE STRING \"\")\n".toList) := by
  intro path chosen removed table table'
  have made : awkward.table chosen .static = .ok table := rfl
  have made' : awkward.table removed .static = .ok table' := rfl
  have differ : table ≠ table' := by decide
  have listed : table.get? "path" = some (.text path) := by decide
  obtain ⟨reading, distinct⟩ := cmakeScript_lossless awkward
  obtain ⟨behind, script, read⟩ := reading table [⟨"mode", .option "mode", some "MODE"⟩]
    ⟨"path", .constant (.text path), some "PATH"⟩ [] path rfl listed
  have scripts := mt (distinct _ _ _ _ _ _ made made').1 differ
  exact ⟨made, made', scripts, listed, _, behind, script, read⟩

end PackageConfig.VariableRules
