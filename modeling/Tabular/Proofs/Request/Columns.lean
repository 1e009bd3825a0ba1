import Tabular.Request.OfStatement
import Tabular.Proofs.Result
import Tabular.Proofs.Statement.Captured
import Tabular.Proofs.Statement.Changes
import Tabular.Proofs.Statement.Names
import Tabular.Proofs.Table.Integrity

/-!
The columns that a parameter list describes.

The entries of the list are what stands between its commas, without blanks around it. An entry that
declares the primary key gives no column, every other one gives the column whose name is its value
(`ofParameters_eq_ok_iff`). An entry names a word if it is the word, bare or in quotes
(`value_eq_iff_namesColumn`). Main statements: the primary key comes among the columns exactly if
another entry names it, and the table itself leaves it out (`primaryKey_mem_columns_iff`); the
columns are words, and so can be referred to in every statement, exactly if all entries name words
(`columns_areWords_iff`).
-/

namespace Tabular

open Tabular.Text

/-! ### Values that are words -/

namespace Text

theorem tight_trim (s : List Char) : Tight (trim s) := by
  constructor
  · intro c hc
    obtain ⟨r, hr, -⟩ := exists_plain_behind_trimEnd (trimStart s)
    have hhead : (trimStart s).head? = some c := by
      rw [hr, List.head?_append]
      exact Option.or_eq_some_iff.2 (.inl hc)
    have hnot := List.head?_dropWhile_not isBlank s
    unfold trimStart at hhead
    rw [hhead] at hnot
    exact hnot
  · intro c hc
    have hnot := List.head?_dropWhile_not isBlank (trimStart s).reverse
    unfold trim trimEnd at hc
    rw [List.getLast?_reverse] at hc
    rw [Option.mem_def.1 hc] at hnot
    exact hnot

/-- Text in which nothing is escaped comes from itself alone. -/
theorem unescape_eq_iff_of_plain {quote : Char} (hquote : isQuote quote = true) {s t : List Char}
    (ht : Plain t) : unescape quote s = t ↔ s = t := by
  fun_induction unescape quote s generalizing t with
  | case1 => exact Iff.rfl
  | case2 c => exact Iff.rfl
  | case3 c d s hescape ih =>
    obtain ⟨rfl, hd⟩ := hescape
    constructor
    · rintro rfl
      have hplain := ht d List.mem_cons_self
      rcases hd with rfl | rfl
      · simp [isPlain, hquote] at hplain
      · exact absurd hplain (by decide)
    · rintro rfl
      exact absurd (ht '\\' List.mem_cons_self) (by decide)
  | case4 c d s hescape ih =>
    cases t with
    | nil => simp
    | cons e t =>
      rw [List.cons.injEq, List.cons.injEq, ih fun f hf => ht f (List.mem_cons_of_mem e hf)]

theorem plain_of_isWordChar {w : List Char} (h : ∀ c ∈ w, isWordChar c = true) : Plain w :=
  fun c hc => Token.isPlain_of_isNameChar (by simp [isNameChar, h c hc])

/-- A value is a possibly empty word where the text, without white space around it, is that word as
it stands or between two equal quotes. -/
theorem clean_eq_iff {w : List Char} (hw : ∀ c ∈ w, isWordChar c = true) (s : List Char) :
    clean s = w ↔
      trim s = w ∨ ∃ quote, isQuote quote = true ∧ trim s = quote :: (w ++ [quote]) := by
  have hplain := plain_of_isWordChar hw
  unfold clean
  cases htrim : trim s with
  | nil => simp
  | cons c inner =>
    dsimp only
    split
    · next hliteral =>
      obtain ⟨hquote, hlast⟩ := hliteral
      obtain ⟨value, rfl⟩ : ∃ value, inner = value ++ [c] :=
        ⟨inner.dropLast, (List.dropLast_append_getLast? c hlast).symm⟩
      rw [List.dropLast_concat, unescape_eq_iff_of_plain hquote hplain]
      constructor
      · rintro rfl
        exact .inr ⟨c, hquote, rfl⟩
      · rintro (rfl | ⟨quote, -, heq⟩)
        · exact absurd (hplain c List.mem_cons_self) (by simp [isPlain, hquote])
        · obtain ⟨rfl, hvalue⟩ := List.cons.inj heq
          exact List.append_cancel_right hvalue
    · next hliteral =>
      refine ⟨.inl, ?_⟩
      rintro (h | ⟨quote, hquote, heq⟩)
      · exact h
      · obtain ⟨rfl, rfl⟩ := List.cons.inj heq
        exact absurd ⟨hquote, List.getLast?_concat⟩ hliteral

end Text

/-! ### Entries -/

namespace Request

/-- An entry names a column: it is the name, bare or between two equal quotes. -/
inductive NamesColumn (name : String) : String → Prop where
  | bare : NamesColumn name name
  | quoted {quote : Char} {entry : String} (quote_opens : isQuote quote = true)
      (text : entry.toList = quote :: (name.toList ++ [quote])) : NamesColumn name entry

theorem tight_of_mem_columnNames {raw entry : String} (h : entry ∈ columnNames raw) :
    Tight entry.toList := by
  obtain ⟨s, -, rfl⟩ := List.mem_map.1 h
  rw [String.toList_ofList]
  exact tight_trim s

/-- **An entry has a word for its value exactly where it names it.** -/
theorem value_eq_iff_namesColumn {raw entry w : String} (h : entry ∈ columnNames raw)
    (hw : ∀ c ∈ w.toList, isWordChar c = true) : value entry.toList = w ↔ NamesColumn w entry := by
  have htrim := (tight_of_mem_columnNames h).trim_eq
  have hvalue : value entry.toList = w ↔ clean entry.toList = w.toList := by
    unfold value
    rw [← String.toList_inj, String.toList_ofList]
  rw [hvalue, clean_eq_iff hw, htrim]
  constructor
  · rintro (heq | ⟨quote, hquote, heq⟩)
    · exact String.toList_inj.1 heq ▸ .bare
    · exact .quoted hquote heq
  · rintro (_ | ⟨hquote, heq⟩)
    · exact .inl rfl
    · exact .inr ⟨_, hquote, heq⟩

/-- Only a word can be assigned. -/
theorem isWord_of_assignment {s : List Char} {a : Assignment} (h : assignment s = .ok a) :
    IsWord a.column := by
  unfold assignment at h
  split at h
  · exact nomatch h
  · next name raw _ =>
    dsimp only at h
    split at h
    · exact nomatch h
    · next hword =>
      obtain rfl := Except.ok.inj h
      obtain ⟨hne, hall⟩ := not_or.1 hword
      refine ⟨by rwa [String.toList_ofList], ?_⟩
      rw [String.toList_ofList]
      exact List.all_eq_true.1 (by simpa using hall)

theorem assignment_word {column : String} (h : IsWord column) (s : List Char) :
    assignment (column.toList ++ '=' :: s) = .ok { column, value := value s } := by
  have hequals : '=' ∉ column.toList := fun hmem => absurd (h.2 '=' hmem) (by decide)
  have hall : column.toList.all isWordChar = true := List.all_eq_true.2 h.2
  unfold assignment
  rw [splitOnce?_append hequals]
  dsimp only
  rw [h.isIdentifier.firm.2.trim_eq, if_neg (by simp [h.1, hall]), String.ofList_toList]

end Request

/-- Statements can refer to a column: its name is read whole in a list of columns, an order or a
join, and the column can be assigned. -/
structure Reachable (column : String) : Prop where
  read : ∀ rest : List Char, (∀ c ∈ rest.head?, isNameChar c = false) →
    Token.identifier (column.toList ++ rest) = .found column rest
  assigned : ∀ s : List Char,
    Request.assignment (column.toList ++ '=' :: s) = .ok { column, value := Request.value s }

/-- **The columns that every statement can refer to are the words.** -/
theorem reachable_iff {column : String} : Reachable column ↔ IsWord column where
  mp h := Request.isWord_of_assignment (h.assigned [])
  mpr h := ⟨fun _ hrest => Token.identifier_append h.isIdentifier hrest, Request.assignment_word h⟩

namespace TableSpec

open Request

/-- What an entry declares for the primary key is a word. -/
theorem isWord_of_declaredKey? {entry key : String} (h : declaredKey? entry = some key) :
    IsWord key := by
  have hyields : keyEntry.Yields TableName :=
    .bind_any fun _ => Grammar.yields_word.bind fun name hname => .bind_any fun _ =>
      .bind_any fun _ => .bind_any fun _ => .bind_any fun _ => .bind_any fun _ => .pure hname
  unfold declaredKey? Reader.run? at h
  split at h
  · next name hread =>
    obtain rfl := Option.some.inj h
    obtain ⟨hne, hchars⟩ := hyields _ _ _ hread
    exact ⟨by simpa using hne, hchars⟩
  · exact nomatch h

/-- An entry that names a word declares no primary key. -/
theorem declaredKey?_of_namesColumn {entry w : String} (hw : IsWord w) (h : NamesColumn w entry) :
    declaredKey? entry = none := by
  have hgap : ∀ s : List Char, (∀ c ∈ s.head?, isGap c = false) → Token.gap s = .found () s :=
    fun s hs => Reader.bind_of_found (Reader.takeWhile_append (t := []) nofun hs)
  have hfails : keyEntry.Fails entry.toList := by
    cases h with
    | bare =>
      -- The blank after the name is missing.
      have hfirm := hw.isIdentifier.firm.head?_not_gap []
      rw [List.append_nil] at hfirm
      have hrun : Reader.takeWhile1 isWordChar (entry.toList ++ []) = .found entry.toList [] :=
        Reader.takeWhile1_append hw.1 hw.2 nofun
      rw [List.append_nil] at hrun
      exact .bind_of_found (hgap _ hfirm)
        (.bind_of_found (Reader.bind_of_found hrun) (Token.gap1_nil.bind _))
    | @quoted quote _ hquote heq =>
      -- There is no name.
      have hgap' : isGap quote = false := Bool.eq_false_iff.2 fun h =>
        absurd (isBlank_of_isGap h) (by simp [isBlank_of_isQuote hquote])
      have hword := isWordChar_of_isQuote hquote
      rw [heq]
      refine .bind_of_found (hgap _ (by rintro _ ⟨⟩; exact hgap')) (Reader.Fails.bind ?_ _)
      exact Reader.Fails.bind ⟨_, Reader.takeWhile1_of_head (by rintro _ ⟨⟩; exact hword)⟩ _
  obtain ⟨rest, hstuck⟩ := hfails
  unfold declaredKey? Reader.run?
  rw [hstuck]

/-- The column that an entry gives. -/
def column? (entry : String) : Option String :=
  if (declaredKey? entry).isSome ∨ value entry.toList = "" then none else some (value entry.toList)

theorem column?_eq_some_iff {entry column : String} :
    column? entry = some column ↔
      declaredKey? entry = none ∧ value entry.toList = column ∧ column ≠ "" := by
  unfold column?
  split
  · next h =>
    refine ⟨nofun, ?_⟩
    rintro ⟨hkey, rfl, hne⟩
    simp [hkey, hne] at h
  · next h =>
    obtain ⟨hkey, hne⟩ := not_or.1 h
    constructor
    · rintro ⟨⟩
      exact ⟨by simpa using hkey, rfl, hne⟩
    · rintro ⟨-, rfl, -⟩
      rfl

/-- **Taking entries in** succeeds as long as there is no second primary key, and adds the columns
that the entries give. -/
theorem foldlM_addEntry_eq_ok_iff {entries : List String} {spec spec' : TableSpec} :
    entries.foldlM addEntry spec = .ok spec' ↔
      (spec.primaryKey.toList ++ entries.filterMap declaredKey?).length ≤ 1 ∧
        spec' =
          { spec with
            primaryKey := (spec.primaryKey.toList ++ entries.filterMap declaredKey?).head?
            columns := spec.columns ++ entries.filterMap column? } := by
  induction entries generalizing spec with
  | nil =>
    obtain ⟨name, key, columns⟩ := spec
    rw [List.foldlM_nil, Result.pure_eq_ok_iff]
    cases key <;> simp [eq_comm]
  | cons entry entries ih =>
    obtain ⟨name, key, columns⟩ := spec
    rw [List.foldlM_cons]
    cases hkey : declaredKey? entry with
    | some declared =>
      have hcolumn : column? entry = none := by simp [column?, hkey]
      cases key with
      | some first => simp [addEntry, hkey]
      | none =>
        have hadd : addEntry { name, primaryKey := none, columns } entry =
            .ok { name, primaryKey := some declared, columns } := by simp [addEntry, hkey]
        rw [hadd, Result.ok_bind, ih]
        simp [hkey, hcolumn]
    | none =>
      have hadd : addEntry { name, primaryKey := key, columns } entry =
          .ok { name, primaryKey := key, columns := columns ++ (column? entry).toList } := by
        by_cases hvalue : value entry.toList = "" <;> simp [addEntry, column?, hkey, hvalue]
      rw [hadd, Result.ok_bind, ih]
      cases hcolumn : column? entry <;> simp [hkey, hcolumn]

/-- **The table that a parameter list describes** has the one primary key that an entry declares, if
one does, and the columns that the other entries give, in their order. -/
theorem ofParameters_eq_ok_iff {name parameters : String} {spec : TableSpec} :
    ofParameters name parameters = .ok spec ↔
      ((columnNames parameters).filterMap declaredKey?).length ≤ 1 ∧
        spec =
          { name
            primaryKey := ((columnNames parameters).filterMap declaredKey?).head?
            columns := (columnNames parameters).filterMap column? } := by
  unfold ofParameters
  rw [foldlM_addEntry_eq_ok_iff]
  simp

section Made

variable {name parameters : String} {spec : TableSpec}
  (made : ofParameters name parameters = .ok spec)

include made

theorem mem_columns_iff {column : String} :
    column ∈ spec.columns ↔ ∃ entry ∈ columnNames parameters, declaredKey? entry = none ∧
      value entry.toList = column ∧ column ≠ "" := by
  obtain ⟨-, rfl⟩ := ofParameters_eq_ok_iff.1 made
  dsimp only
  rw [List.mem_filterMap]
  exact exists_congr fun entry => and_congr_right fun _ => column?_eq_some_iff

theorem isWord_of_primaryKey {key : String} (h : spec.primaryKey = some key) : IsWord key := by
  obtain ⟨-, rfl⟩ := ofParameters_eq_ok_iff.1 made
  obtain ⟨entry, -, hentry⟩ := List.mem_filterMap.1 (List.mem_of_head? h)
  exact isWord_of_declaredKey? hentry

/-- A word is a column exactly if an entry names it: such an entry declares no primary key. -/
theorem mem_columns_iff_of_isWord {w : String} (hw : IsWord w) :
    w ∈ spec.columns ↔ ∃ entry ∈ columnNames parameters, NamesColumn w entry := by
  rw [mem_columns_iff made]
  constructor
  · rintro ⟨entry, hentry, -, hvalue, -⟩
    exact ⟨entry, hentry, (value_eq_iff_namesColumn hentry hw.2).1 hvalue⟩
  · rintro ⟨entry, hentry, hnames⟩
    refine ⟨entry, hentry, declaredKey?_of_namesColumn hw hnames,
      (value_eq_iff_namesColumn hentry hw.2).2 hnames, ?_⟩
    rintro rfl
    exact hw.1 rfl

end Made

/-! ### The primary key among the columns -/

/-- **The primary key is among the columns exactly if an entry names it** besides the one that
declares it; a table that is made of the specification leaves it out all the same. -/
theorem primaryKey_mem_columns_iff {name parameters key : String} {spec : TableSpec}
    (made : ofParameters name parameters = .ok spec) (declared : spec.primaryKey = some key) :
    (key ∈ spec.columns ↔ ∃ entry ∈ columnNames parameters, NamesColumn key entry) ∧
      key ∉ (Table.ofSpec spec).columns :=
  ⟨mem_columns_iff_of_isWord made (isWord_of_primaryKey made declared),
    (Table.ofSpec_sound spec).key_not_mem_columns key declared⟩

theorem primaryKey_mem_columns_in_quotes :
    ofParameters "t" "identity, id AS PRIMARY_KEY, 'id'" =
        .ok { name := "t", primaryKey := some "id", columns := ["identity", "id"] } ∧
      (∃ entry ∈ columnNames "identity, id AS PRIMARY_KEY, 'id'", NamesColumn "id" entry) ∧
      "id" ∉ (Table.ofSpec
        { name := "t", primaryKey := some "id", columns := ["identity", "id"] }).columns := by
  have made : ofParameters "t" "identity, id AS PRIMARY_KEY, 'id'" =
      .ok { name := "t", primaryKey := some "id", columns := ["identity", "id"] } := by
    decide +kernel
  obtain ⟨hmem, hnot⟩ := primaryKey_mem_columns_iff made rfl
  exact ⟨made, hmem.1 (by decide), hnot⟩

/-- A column list may repeat the primary key. -/
theorem not_primaryKey_apart :
    ¬∀ (name parameters key : String) (spec : TableSpec), ofParameters name parameters = .ok spec →
      spec.primaryKey = some key → key ∉ spec.columns := by
  intro h
  have made : ofParameters "t" "id AS PRIMARY_KEY, id" =
      .ok { name := "t", primaryKey := some "id", columns := ["id"] } := by decide +kernel
  exact h _ _ _ _ made rfl (by decide)

/-! ### Columns that are words -/

/-- **The columns of a new table are words exactly if the entries are**, those for the primary key
apart: each a possibly empty word, bare or in quotes. In any case the table and its primary key are
words and no column is empty; and to refer to a column in every statement its name has to be a word.
-/
theorem columns_areWords_iff {text name parameters : String} {spec : TableSpec}
    (parsed : Statement.parse text = .ok (.create .table name (some parameters)))
    (made : ofParameters name parameters = .ok spec) :
    IsWord spec.name ∧ (∀ key, spec.primaryKey = some key → IsWord key) ∧
      (∀ column ∈ spec.columns, column ≠ "" ∧ (Reachable column ↔ IsWord column)) ∧
      ((∀ column ∈ spec.columns, IsWord column) ↔
        ∀ entry ∈ columnNames parameters, declaredKey? entry = none →
          ∃ w, (∀ c ∈ w.toList, isWordChar c = true) ∧ NamesColumn w entry) := by
  refine ⟨?_, fun key => isWord_of_primaryKey made, fun column hcolumn => ?_,
    fun h entry hentry hkey => ?_, fun h column hcolumn => ?_⟩
  · obtain ⟨hne, hchars⟩ := Statement.tableName_of_parse parsed
    obtain ⟨-, rfl⟩ := ofParameters_eq_ok_iff.1 made
    exact ⟨by simpa using hne, hchars⟩
  · obtain ⟨-, -, -, -, hne⟩ := (mem_columns_iff made).1 hcolumn
    exact ⟨hne, reachable_iff⟩
  · by_cases hempty : value entry.toList = ""
    · have hnone : ∀ c ∈ "".toList, isWordChar c = true := by decide
      exact ⟨"", hnone, (value_eq_iff_namesColumn hentry hnone).1 hempty⟩
    · have hword := (h _ ((mem_columns_iff made).2 ⟨entry, hentry, hkey, rfl, hempty⟩)).2
      exact ⟨_, hword, (value_eq_iff_namesColumn hentry hword).1 rfl⟩
  · obtain ⟨entry, hentry, hkey, hvalue, hne⟩ := (mem_columns_iff made).1 hcolumn
    obtain ⟨w, hw, hnames⟩ := h entry hentry hkey
    obtain rfl : w = column := ((value_eq_iff_namesColumn hentry hw).2 hnames).symm.trans hvalue
    exact ⟨by simpa using hne, hw⟩

theorem columns_areWords_of_quoted_entry :
    Statement.parse "CREATE TABLE t (id AS PRIMARY_KEY, 'name', , size_2)" =
        .ok (.create .table "t" (some "id AS PRIMARY_KEY, 'name', , size_2")) ∧
      ofParameters "t" "id AS PRIMARY_KEY, 'name', , size_2" =
        .ok { name := "t", primaryKey := some "id", columns := ["name", "size_2"] } ∧
      ∀ column ∈ ["name", "size_2"], IsWord column := by
  have parsed : Statement.parse "CREATE TABLE t (id AS PRIMARY_KEY, 'name', , size_2)" =
      .ok (.create .table "t" (some "id AS PRIMARY_KEY, 'name', , size_2")) := by decide +kernel
  have made : ofParameters "t" "id AS PRIMARY_KEY, 'name', , size_2" =
      .ok { name := "t", primaryKey := some "id", columns := ["name", "size_2"] } := by
    decide +kernel
  have hentries : columnNames "id AS PRIMARY_KEY, 'name', , size_2" =
      ["id AS PRIMARY_KEY", "'name'", "", "size_2"] := by decide +kernel
  refine ⟨parsed, made, (columns_areWords_iff parsed made).2.2.2.2 ?_⟩
  rw [hentries]
  intro entry hentry hkey
  simp only [List.mem_cons, List.not_mem_nil, or_false] at hentry
  rcases hentry with rfl | rfl | rfl | rfl
  · exact absurd hkey (by decide +kernel)
  · exact ⟨"name", by decide +kernel, .quoted (show isQuote '\'' = true by decide) rfl⟩
  · exact ⟨"", by decide, .bare⟩
  · exact ⟨"size_2", by decide +kernel, .bare⟩

/-- A statement can create a column that is no word. -/
theorem not_columns_areWords :
    ¬∀ (text name parameters : String) (spec : TableSpec),
      Statement.parse text = .ok (.create .table name (some parameters)) →
      ofParameters name parameters = .ok spec → ∀ column ∈ spec.columns, IsWord column := by
  intro h
  have parsed : Statement.parse "CREATE TABLE t (id AS PRIMARY_KEY, first name)" =
      .ok (.create .table "t" (some "id AS PRIMARY_KEY, first name")) := by decide +kernel
  have made : ofParameters "t" "id AS PRIMARY_KEY, first name" =
      .ok { name := "t", primaryKey := some "id", columns := ["first name"] } := by decide +kernel
  exact absurd (h _ _ _ _ parsed made "first name" List.mem_cons_self) (by decide +kernel)

end TableSpec

end Tabular
