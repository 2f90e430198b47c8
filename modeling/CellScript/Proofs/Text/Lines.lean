import CellScript.SourceMap
import Mathlib.Data.List.DropRight
import Mathlib.Data.String.Basic

/-!
# Line tables are exact

The offsets at which the lines of a text begin are computed from its characters, the line of an
offset is found by halving that table, and a line is cut out between two of its offsets. In terms of
the bytes of the text: the line of an offset counts the newlines before it, the column counts from
the last of them, and the lines joined by newlines are the text again.

* `Lines.Located`, `Lines.located_search` — what a search finds in an ascending table
* `Lines.OnLine`, `Lines.onLine_indexAt` — the line of an offset is the last that begins no later
* `Lines.toList_starts` — the table is zero and the offsets after the newline bytes
* `Lines.BeginsLine`, `Lines.OnLine.beginsLine`, `Lines.OnLine.index_eq` — that line in bytes
* `Lines.Breaks`, `Lines.Breaks.line?_eq` — a text and its lines, each cut out by its offsets
* `SourceFile.lines_exact` — positions and lines of every text
-/

namespace CellScript

open List (findIdxs)
open String (utf8EncodeChar utf8Len)

namespace Lines

/-! ## Looking for a value -/

section Search

variable {xs : Array Nat} {x : Nat}

/-- What a search for `x` says of the table `xs`. -/
inductive Located (xs : Array Nat) (x : Nat) : Except Nat Nat → Prop where
  | found {i : Nat} (here : xs[i]? = some x) : Located xs x (.ok i)
  | missing {i : Nat} (inside : i ≤ xs.size) (before : ∀ j y, xs[j]? = some y → j < i → y < x)
    (after : ∀ j y, xs[j]? = some y → i ≤ j → x < y) : Located xs x (.error i)

theorem lt_of_ascending (ascending : xs.toList.Pairwise (· < ·)) {i j y z : Nat}
    (first : xs[i]? = some y) (second : xs[j]? = some z) (lt : i < j) : y < z := by
  obtain ⟨hi, rfl⟩ := Array.getElem?_eq_some_iff.1 first
  obtain ⟨hj, rfl⟩ := Array.getElem?_eq_some_iff.1 second
  exact List.pairwise_iff_getElem.1 ascending i j hi hj lt

/-- The invariant of halving: all before `lo` is less, and all from `hi` on is greater. -/
theorem located_searchFrom (ascending : xs.toList.Pairwise (· < ·)) {lo hi : Nat}
    {bound : hi ≤ xs.size} (ordered : lo ≤ hi) (before : ∀ j y, xs[j]? = some y → j < lo → y < x)
    (after : ∀ j y, xs[j]? = some y → hi ≤ j → x < y) :
    Located xs x (searchFrom xs x lo hi bound) := by
  -- the element in the middle decides for its whole half, because the table ascends
  fun_induction searchFrom xs x lo hi bound with
  | case1 lo hi bound h mid inside eq => exact .found (by rw [Array.getElem?_eq_getElem inside, eq])
  | case2 lo hi bound h mid inside ne less ih =>
    have middle : xs[mid]? = some xs[mid] := Array.getElem?_eq_getElem inside
    refine ih (by omega) (fun j y here lt => ?_) after
    rcases Nat.lt_succ_iff_lt_or_eq.1 lt with lt | rfl
    · exact Nat.lt_trans (lt_of_ascending ascending here middle lt) less
    · rwa [← Option.some.inj (middle.symm.trans here)]
  | case3 lo hi bound h mid inside ne less ih =>
    have middle : xs[mid]? = some xs[mid] := Array.getElem?_eq_getElem inside
    refine ih (by omega) before fun j y here le => ?_
    rcases Nat.lt_or_eq_of_le le with lt | rfl
    · exact Nat.lt_trans (by omega) (lt_of_ascending ascending middle here lt)
    · rw [← Option.some.inj (middle.symm.trans here)]
      omega
  | case4 lo hi bound h =>
    exact .missing (by omega) before fun j y here le => after j y here (by omega)

theorem located_search (ascending : xs.toList.Pairwise (· < ·)) : Located xs x (search xs x) :=
  located_searchFrom ascending (Nat.zero_le _) (fun _ _ _ lt => absurd lt (Nat.not_lt_zero _))
    fun j y here le => by
      rw [Array.getElem?_eq_none le] at here
      cases here

/-- An offset is on the line `index`, which begins at `start`: no later line begins at the offset or
before. -/
structure OnLine (starts : Array Nat) (offset index start : Nat) : Prop where
  begins : starts[index]? = some start
  reached : start ≤ offset
  last : ∀ j y, starts[j]? = some y → index < j → offset < y

theorem onLine_indexAt (ascending : xs.toList.Pairwise (· < ·)) (first : xs[0]? = some 0)
    (offset : Nat) :
    ∃ start, OnLine xs offset (indexAt xs offset) start := by
  have located := located_search (x := offset) ascending
  unfold indexAt
  cases found : search xs offset with
  | ok i =>
    rw [found] at located
    cases located with
    | found here => exact ⟨offset, here, Nat.le_refl _, fun j y => lt_of_ascending ascending here⟩
  | error i =>
    rw [found] at located
    cases located with
    | missing inside before after =>
      -- the first line begins at zero, so that something is before the insertion point
      have pos : 0 < i := Nat.pos_of_ne_zero fun zero => Nat.not_lt_zero _ (after 0 0 first zero.le)
      have here : xs[i - 1]? = some xs[i - 1] := Array.getElem?_eq_getElem (by omega)
      have less : xs[i - 1] < offset := before _ _ here (by omega)
      exact ⟨xs[i - 1], here, Nat.le_of_lt less, fun j y later lt =>
        after j y later (Nat.le_of_pred_lt lt)⟩

/-- Where all of a first part begin no later than the offset and all others later, the line is the
last of the first part. -/
theorem OnLine.succ_index {offset index start : Nat} {upTo beyond : List Nat}
    (line : OnLine xs offset index start) (parts : xs.toList = upTo ++ beyond)
    (early : ∀ y ∈ upTo, y ≤ offset) (late : ∀ y ∈ beyond, offset < y) :
    index + 1 = upTo.length := by
  have begins : (upTo ++ beyond)[index]? = some start := by
    rw [← parts, Array.getElem?_toList, line.begins]
  rcases Nat.lt_trichotomy (index + 1) upTo.length with less | same | greater
  · have here : xs[index + 1]? = some upTo[index + 1] := by
      rw [← Array.getElem?_toList, parts, List.getElem?_append_left less,
        List.getElem?_eq_getElem less]
    have reached := early _ (List.getElem_mem less)
    exact absurd (line.last _ _ here (Nat.lt_succ_self _)) (by omega)
  · exact same
  · rw [List.getElem?_append_right (by omega)] at begins
    exact absurd (late _ (List.mem_of_getElem? begins)) (by have := line.reached; omega)

theorem position_eq {offset start : Nat} (line : OnLine xs offset (indexAt xs offset) start) :
    position xs offset = (indexAt xs offset + 1, offset - start + 1) := by
  rw [position, Array.getD_eq_getD_getElem?, line.begins, Option.getD_some]

end Search

/-! ## Newlines in the bytes of a text -/

section Bytes

/-- The byte that ends a line. -/
def newline : UInt8 := 10

/-- The bytes of a text. -/
def bytes (text : String) : List UInt8 := text.toByteArray.data.toList

theorem bytes_eq (text : String) : bytes text = text.toList.flatMap utf8EncodeChar := by
  rw [bytes, ← String.utf8Encode_toList, List.utf8Encode, List.data_toByteArray]

/-- In the encoding of a character only an ASCII character itself is below 128. -/
theorem toNat_of_mem_utf8EncodeChar {c : Char} {b : UInt8} (mem : b ∈ utf8EncodeChar c)
    (ascii : b.toNat < 128) : b.toNat = c.val.toNat := by
  -- one case for each length of the encoding: the bytes of the longer ones have their top bit set
  grind [utf8EncodeChar, UInt8.toNat_ofNat']

theorem newline_not_mem_utf8EncodeChar {c : Char} (other : c ≠ '\n') :
    newline ∉ utf8EncodeChar c := by
  intro mem
  have same : newline.toNat = c.val.toNat := toNat_of_mem_utf8EncodeChar mem (by decide)
  exact other (Char.ext (UInt32.toNat_inj.1 same.symm))

theorem startsFrom_eq (offset : Nat) (text : List Char) : startsFrom offset text =
    findIdxs (· == newline) (text.flatMap utf8EncodeChar) (offset + 1) := by
  induction text generalizing offset with
  | nil => rfl
  | cons c rest ih =>
    have next : offset + 1 + c.utf8Size = offset + c.utf8Size + 1 := by omega
    rw [startsFrom, List.flatMap_cons, List.findIdxs_append, String.length_utf8EncodeChar, ih, next]
    by_cases same : c = '\n'
    · subst same
      rfl
    · have none : findIdxs (· == newline) (utf8EncodeChar c) (offset + 1) = [] :=
        List.findIdxs_eq_nil_iff.2 fun b mem =>
          beq_false_of_ne fun eq => newline_not_mem_utf8EncodeChar same (eq ▸ mem)
      rw [none, if_neg same, List.nil_append]

variable {text : String} {offset index start : Nat}

/-- **The table is zero and the offset after each newline byte.** -/
theorem toList_starts (text : String) :
    (starts text.toList).toList = 0 :: findIdxs (· == newline) (bytes text) 1 := by
  rw [starts, startsFrom_eq, bytes_eq, Nat.zero_add]

theorem mem_starts_iff : start ∈ (starts text.toList).toList ↔
    start = 0 ∨ ∃ i, start = i + 1 ∧ (bytes text)[i]? = some newline := by
  rw [toList_starts, List.mem_cons, List.mem_findIdxs_iff_getElem_sub_pos]
  refine or_congr_right ⟨fun ⟨pos, inside, eq⟩ => ⟨start - 1, by omega, ?_⟩, ?_⟩
  · rw [List.getElem?_eq_getElem inside, beq_iff_eq.1 eq]
  · rintro ⟨i, rfl, here⟩
    obtain ⟨inside, eq⟩ := List.getElem?_eq_some_iff.1 here
    exact ⟨by omega, inside, by simpa using eq⟩

theorem ascending_starts (text : String) : (starts text.toList).toList.Pairwise (· < ·) := by
  rw [toList_starts, List.pairwise_cons]
  exact ⟨fun y mem => List.ge_of_mem_findIdxs y mem, List.pairwise_findIdxs⟩

/-- The line of an offset begins at `start`: after the last newline before the offset, or with the
text. -/
structure BeginsLine (bytes : List UInt8) (offset start : Nat) : Prop where
  reached : start ≤ offset
  opened : start = 0 ∨ ∃ i, start = i + 1 ∧ bytes[i]? = some newline
  unbroken : ∀ i, start ≤ i → i < offset → bytes[i]? ≠ some newline

theorem OnLine.beginsLine (line : OnLine (starts text.toList) offset index start) :
    BeginsLine (bytes text) offset start where
  reached := line.reached
  opened := mem_starts_iff.1 (List.mem_of_getElem? (Array.getElem?_toList.trans line.begins))
  unbroken := by
    intro i le lt broken
    -- a newline in between would begin a line of its own, no later than the offset
    obtain ⟨j, here⟩ := List.mem_iff_getElem?.1 (mem_starts_iff.2 (.inr ⟨i, rfl, broken⟩))
    rw [Array.getElem?_toList] at here
    rcases Nat.lt_trichotomy index j with less | rfl | less
    · exact absurd (line.last j _ here less) (by omega)
    · exact absurd (Option.some.inj (line.begins.symm.trans here)) (by omega)
    · exact absurd (lt_of_ascending (ascending_starts text) here line.begins less) (by omega)

/-- The index of a line counts the newlines before any offset on it. -/
theorem OnLine.index_eq (line : OnLine (starts text.toList) offset index start) :
    index = ((bytes text).take offset).count newline := by
  -- the table in two parts: what begins up to the offset, and what begins beyond it
  let upTo := 0 :: findIdxs (· == newline) ((bytes text).take offset) 1
  let beyond :=
    findIdxs (· == newline) ((bytes text).drop offset) (1 + ((bytes text).take offset).length)
  have parts : (starts text.toList).toList = upTo ++ beyond := by
    rw [toList_starts, List.cons_append, ← List.findIdxs_append, List.take_append_drop]
  have early : ∀ y ∈ upTo, y ≤ offset := by
    intro y mem
    rcases List.mem_cons.1 mem with rfl | mem
    · exact Nat.zero_le _
    · have lt := List.lt_add_of_mem_findIdxs y mem
      rw [List.length_take] at lt
      omega
  have late : ∀ y ∈ beyond, offset < y := by
    intro y mem
    obtain ⟨ge, inside, -⟩ := List.mem_findIdxs_iff_getElem_sub_pos.1 mem
    rw [List.length_drop] at inside
    rw [List.length_take] at ge
    omega
  have size : upTo.length = ((bytes text).take offset).count newline + 1 := by
    rw [List.length_cons, List.length_findIdxs, List.count]
  exact Nat.succ_injective ((line.succ_index parts early late).trans size)

end Bytes

/-! ## Cutting out lines -/

theorem cut?_append (a b : List Char) : cut? (utf8Len a) (a ++ b) = some (a, b) := by
  induction a with
  | nil => simp [cut?]
  | cons c a ih =>
    have pos := c.utf8Size_pos
    -- a cut recurs on a successor, so the length of the first part has to be seen as one
    obtain ⟨n, size⟩ : ∃ n, utf8Len (c :: a) = n + 1 := ⟨utf8Len a + c.utf8Size - 1, by simp; omega⟩
    have rest : n + 1 - c.utf8Size = utf8Len a := by simp at size; omega
    rw [size, List.cons_append, cut?, if_pos (by simp at size; omega), rest, ih]
    rfl

theorem slice?_append (a b c : List Char) :
    slice? (a ++ b ++ c) (utf8Len a) (utf8Len (a ++ b)) = some b := by
  simp [slice?, cut?_append]

theorem trimEnd_of_not_mem {line : List Char} (unbroken : '\n' ∉ line) : trimEnd line = line := by
  refine List.rdropWhile_eq_self_iff.2 fun nonempty last => unbroken ?_
  rw [← beq_iff_eq.1 last]
  exact List.getLast_mem nonempty

theorem trimEnd_concat_newline (line : List Char) : trimEnd (line ++ ['\n']) = trimEnd line :=
  List.rdropWhile_concat_pos _ _ _ rfl

theorem startsFrom_append (offset : Nat) (a b : List Char) :
    startsFrom offset (a ++ b) = startsFrom offset a ++ startsFrom (offset + utf8Len a) b := by
  induction a generalizing offset with
  | nil => rfl
  | cons c a ih =>
    have next : offset + c.utf8Size + utf8Len a = offset + utf8Len (c :: a) := by
      rw [String.utf8Len_cons]
      omega
    rw [List.cons_append, startsFrom, startsFrom, ih, next]
    split <;> rfl

theorem startsFrom_of_not_mem {line : List Char} (unbroken : '\n' ∉ line) (offset : Nat) :
    startsFrom offset line = [] := by
  induction line generalizing offset with
  | nil => rfl
  | cons c rest ih =>
    rw [startsFrom, if_neg (List.ne_of_not_mem_cons unbroken).symm]
    exact ih (List.not_mem_of_not_mem_cons unbroken) _

/-- A text and its lines, without their newlines. -/
inductive Breaks : List Char → List (List Char) → Prop where
  | last {line : List Char} (unbroken : '\n' ∉ line) : Breaks line [line]
  | more {line rest : List Char} {lines : List (List Char)} (unbroken : '\n' ∉ line)
    (later : Breaks rest lines) : Breaks (line ++ '\n' :: rest) (line :: lines)

theorem exists_breaks (text : List Char) : ∃ lines, Breaks text lines := by
  induction text with
  | nil => exact ⟨_, .last List.not_mem_nil⟩
  | cons c rest ih =>
    obtain ⟨lines, breaks⟩ := ih
    by_cases same : c = '\n'
    · subst same
      exact ⟨[] :: lines, @Breaks.more [] rest lines List.not_mem_nil breaks⟩
    · have longer : ∀ line : List Char, '\n' ∉ line → '\n' ∉ c :: line := fun line unbroken =>
        List.not_mem_cons_of_ne_of_not_mem (Ne.symm same) unbroken
      cases breaks with
      | last unbroken => exact ⟨_, .last (longer _ unbroken)⟩
      | @more line rest lines unbroken later =>
        exact ⟨(c :: line) :: lines, @Breaks.more (c :: line) rest lines (longer _ unbroken) later⟩

namespace Breaks

variable {text : List Char} {lines : List (List Char)}

theorem not_mem (breaks : Breaks text lines) : ∀ line ∈ lines, '\n' ∉ line := by
  induction breaks with
  | last unbroken => simpa using unbroken
  | more unbroken later ih => exact List.forall_mem_cons.2 ⟨unbroken, ih⟩

theorem ne_nil (breaks : Breaks text lines) : lines ≠ [] := by
  cases breaks <;> exact List.cons_ne_nil _ _

theorem intercalate (breaks : Breaks text lines) : ['\n'].intercalate lines = text := by
  induction breaks with
  | last unbroken => exact List.intercalate_singleton
  | more unbroken later ih =>
    rw [List.intercalate_cons_of_ne_nil later.ne_nil, ih]
    simp

end Breaks

theorem line?_eq_some {starts : Array Nat} {text part : List Char} {index start stop : Nat}
    (begins : starts[index]? = some start) (ends : starts[index + 1]?.getD (utf8Len text) = stop)
    (cut : slice? text start stop = some part) :
    line? starts (String.ofList text) index = some (trimEnd part) := by
  simp [line?, String.utf8ByteSize_ofList, begins, ends, cut]

theorem line?_cons (start : Nat) (starts : List Nat) (text : String) (index : Nat) :
    line? (start :: starts).toArray text (index + 1) = line? starts.toArray text index := by
  simp [line?]

/-- Between two offsets of the table stands a line, with its newline if it has one. -/
theorem Breaks.line?_eq {text : List Char} {lines : List (List Char)} (breaks : Breaks text lines)
    (before : List Char) (index : Nat) :
    line? (utf8Len before :: startsFrom (utf8Len before) text).toArray
      (String.ofList (before ++ text)) index = lines[index]? := by
  -- what stands before the lines that are left grows by a line at each step
  induction breaks generalizing before index with
  | @last line unbroken =>
    rw [startsFrom_of_not_mem unbroken]
    cases index with
    | zero =>
      have cut := slice?_append before line []
      rw [List.append_nil] at cut
      rw [line?_eq_some rfl rfl cut, trimEnd_of_not_mem unbroken]
      rfl
    | succ index => rfl
  | @more line rest lines unbroken later ih =>
    have cut := slice?_append before (line ++ ['\n']) rest
    have whole : before ++ (line ++ '\n' :: rest) = before ++ (line ++ ['\n']) ++ rest := by
      rw [List.append_assoc, List.append_assoc, List.singleton_append]
    have table : startsFrom (utf8Len before) (line ++ '\n' :: rest) =
        utf8Len (before ++ (line ++ ['\n'])) ::
          startsFrom (utf8Len (before ++ (line ++ ['\n']))) rest := by
      rw [startsFrom_append, startsFrom_of_not_mem unbroken, String.utf8Len_append,
        String.utf8Len_append]
      rfl
    rw [table, whole]
    cases index with
    | zero =>
      rw [line?_eq_some rfl rfl cut, trimEnd_concat_newline, trimEnd_of_not_mem unbroken]
      rfl
    | succ index =>
      rw [line?_cons, ih]
      rfl

end Lines

namespace SourceFile

/-- **Line tables are exact.** In every file with a text, an offset is on the line that comes after
as many newline bytes as stand before the offset, and its column counts from the last of them, past
the end of the text too. The file answers with lines that hold no newline and give back the text
when joined by newlines, and with nothing beyond them. -/
theorem lines_exact (path source : String) :
    let file : SourceFile := ⟨path, some source⟩
    (∀ offset, ∃ start, Lines.BeginsLine (Lines.bytes source) offset start ∧
      file.lineCol offset =
        (((Lines.bytes source).take offset).count Lines.newline + 1, offset - start + 1)) ∧
    ∃ lines : List String, file.lineText? 0 = none ∧ (∀ n, file.lineText? (n + 1) = lines[n]?) ∧
      (∀ line ∈ lines, '\n' ∉ line.toList) ∧ "\n".intercalate lines = source := by
  intro file
  refine ⟨fun offset => ?_, ?_⟩
  · have first : (Lines.starts source.toList)[0]? = some 0 := by simp [Lines.starts]
    obtain ⟨start, line⟩ := Lines.onLine_indexAt (Lines.ascending_starts source) first offset
    refine ⟨start, line.beginsLine, ?_⟩
    rw [← line.index_eq]
    exact Lines.position_eq line
  · obtain ⟨lines, breaks⟩ := Lines.exists_breaks source.toList
    refine ⟨lines.map String.ofList, rfl, fun n => ?_, ?_, ?_⟩
    · have cut := breaks.line?_eq [] n
      rw [List.nil_append, String.ofList_toList] at cut
      show (Lines.line? (Lines.starts source.toList) source n).map String.ofList = _
      rw [List.getElem?_map, ← cut]
      rfl
    · rw [List.forall_mem_map]
      intro line mem
      rw [String.toList_ofList]
      exact breaks.not_mem line mem
    · rw [← String.toList_inj, String.toList_intercalate, List.map_map]
      simpa [Function.comp_def] using breaks.intercalate

/-- After a character of two bytes and two newlines, within the text and past its end. -/
example : let file : SourceFile := ⟨"m", some "é\n\n"⟩
    file.lineCol 3 = (2, 1) ∧ file.lineCol 9 = (3, 6) ∧ file.lineText? 3 = some "" ∧
      file.lineText? 4 = none := by
  decide +kernel

end SourceFile

end CellScript
