import Reckoner.Json.Literal

/-!
# JSON documents

Reading a whole document into a datum. Besides the values of the JSON grammar the words `NaN`,
`Infinity` and `-Infinity` are read as doubles. A key that is repeated in an object keeps its first
place and takes its last value.
-/

namespace Reckoner.Json

/-- White space between the tokens of a document. -/
def isSpace (c : CodePoint) : Bool :=
  c = .scalar ' ' || c = .scalar '\t' || c = .scalar '\n' || c = .scalar '\r'

/-- The text without the white space at its beginning. -/
def skipSpace (t : Text) : Text := t.dropWhile isSpace

theorem length_skipSpace_le (t : Text) : (skipSpace t).length ≤ t.length :=
  (List.dropWhile_sublist _).length_le

/-- What follows the white space is shorter than the text. -/
theorem length_lt_of_skipSpace {t r : Text} {c : CodePoint} (h : skipSpace t = c :: r) :
    r.length < t.length := by
  have := length_skipSpace_le t
  rw [h, List.length_cons] at this
  exact this

/-- Enter a value under a key: a known key takes the new value in its old place. -/
def put (entries : List (Text × Datum)) (key : Text) (d : Datum) : List (Text × Datum) :=
  if entries.any fun e => e.1 = key then
    entries.map fun e => if e.1 = key then (key, d) else e
  else entries ++ [(key, d)]

/-- The words that stand for values. -/
def words (hooks : Hooks) : List (String × Except Problem Datum) :=
  let constant (word : String) (x : Double) : String × Except Problem Datum :=
    (word, hooks.constant.apply (Text.ofString word) (.double x))
  [("null", .ok .null), ("true", .ok (.bool true)), ("false", .ok (.bool false)),
    constant "NaN" (.nan 0), constant "Infinity" (.infinite false),
    constant "-Infinity" (.infinite true)]

/-- The word at the beginning of a text. -/
def word? (hooks : Hooks) (t : Text) : Option (Literal t) :=
  (words hooks).findSome? fun (word, d) =>
    let w := Text.ofString word
    if h : 0 < w.length ∧ w.length ≤ t.length ∧ t.take w.length = w then
      some (d, ⟨t.drop w.length, by rw [List.length_drop]; omega⟩)
    else none

/-- What is to be read: a value, or the rest of an array or object behind what was read of it. -/
inductive Goal where
  | value
  | items (done : List Datum)
  | members (done : List (Text × Datum))

/-- The rest of an array begins with a value. -/
def Goal.rank : Goal → Nat
  | value => 0
  | items _ | members _ => 1

/-- Read a goal at the beginning of a text. -/
def read (hooks : Hooks) (g : Goal) (t : Text) : Reading Datum t :=
  match g with
  | .value =>
    match t with
    | .scalar '"' :: s =>
      Reading.weaken ((string (s.length + 1) s).map fun (key, r) => (Datum.text key, r))
        (Nat.le_succ _)
    | .scalar '{' :: s =>
      match h : skipSpace s with
      | .scalar '}' :: r => .ok (.dict [], ⟨r, Nat.lt_succ_of_lt (length_lt_of_skipSpace h)⟩)
      | _ =>
        Reading.weaken (read hooks (.members []) (skipSpace s))
          (Nat.le_succ_of_le (length_skipSpace_le s))
    | .scalar '[' :: s =>
      match h : skipSpace s with
      | .scalar ']' :: r => .ok (.list [], ⟨r, Nat.lt_succ_of_lt (length_lt_of_skipSpace h)⟩)
      | _ =>
        Reading.weaken (read hooks (.items []) (skipSpace s))
          (Nat.le_succ_of_le (length_skipSpace_le s))
    | t =>
      match word? hooks t with
      | some l => l.reading
      | none => number hooks t
  | .items done =>
    match read hooks .value t with
    | .error p => .error p
    | .ok (d, rest) =>
      match h : skipSpace rest.1 with
      | .scalar ']' :: r =>
        .ok (.list (done ++ [d]), ⟨r, Nat.lt_trans (length_lt_of_skipSpace h) rest.2⟩)
      | .scalar ',' :: r =>
        Reading.weaken (read hooks (.items (done ++ [d])) (skipSpace r))
          (Nat.le_trans (length_skipSpace_le r)
            (Nat.le_of_lt (Nat.lt_trans (length_lt_of_skipSpace h) rest.2)))
      | s => .error (.grammar "Expecting ',' delimiter" s.length)
  | .members done =>
    match t with
    | .scalar '"' :: s =>
      match string (s.length + 1) s with
      | .error p => .error p
      | .ok (key, rest) =>
        match h : skipSpace rest.1 with
        | .scalar ':' :: r =>
          match read hooks .value (skipSpace r) with
          | .error p => .error p
          | .ok (d, behind) =>
            have hb : behind.1.length < s.length := by
              have h1 := behind.2
              have h2 := length_skipSpace_le r
              have h3 := length_lt_of_skipSpace h
              have h4 := rest.2
              omega
            match h' : skipSpace behind.1 with
            | .scalar '}' :: r =>
              .ok (.dict (put done key d),
                ⟨r, Nat.lt_succ_of_lt (Nat.lt_trans (length_lt_of_skipSpace h') hb)⟩)
            | .scalar ',' :: r =>
              Reading.weaken (read hooks (.members (put done key d)) (skipSpace r))
                (Nat.le_trans (length_skipSpace_le r)
                  (Nat.le_succ_of_le
                    (Nat.le_of_lt (Nat.lt_trans (length_lt_of_skipSpace h') hb))))
            | s => .error (.grammar "Expecting ',' delimiter" s.length)
        | s => .error (.grammar "Expecting ':' delimiter" s.length)
    | t => .error (.grammar "Expecting property name enclosed in double quotes" t.length)
termination_by (t.length, g.rank)
decreasing_by
  all_goals simp_wf
  all_goals simp only [Prod.lex_def, Goal.rank, true_and]
  all_goals first
    | omega
    | have := length_skipSpace_le s; omega
    | have := length_skipSpace_le r; have := length_lt_of_skipSpace h; have := rest.2; omega
    | have := length_skipSpace_le r; have := length_lt_of_skipSpace h'; omega

/-- Read a whole document. A byte order mark does not belong to it. -/
def parse (hooks : Hooks) (document : Text) : Except Error Datum :=
  if document.head? = some (.scalar '\uFEFF') then
    .error (.grammar "Unexpected UTF-8 BOM (decode using utf-8-sig)" (.ofIndex document 0))
  else
    match read hooks .value (skipSpace document) with
    | .error p => .error (p.locate document)
    | .ok (d, rest) =>
      match skipSpace rest.1 with
      | [] => .ok d
      | s => .error (Problem.locate document (.grammar "Extra data" s.length))

end Reckoner.Json
