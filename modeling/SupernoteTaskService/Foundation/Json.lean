import SupernoteTaskService.Foundation.ByteCodecs

/-!
# JSON texts

The reader accepts what the Python library's `json.loads` accepts: any value of
the grammar with surrounding white space, plus the three non-finite literals.  A
decoded string is a sequence of code points, because an escape may name a lone
surrogate; a number with a fraction or an exponent keeps its literal.

The writer is `json.dumps` for flat objects of strings and natural numbers, with
the compact separators and `ensure_ascii=False`.  `loads_renderObject` reads every
such object back.
-/

set_option autoImplicit false

namespace SupernoteTaskService.Foundation

inductive Json where
  | null
  | bool (value : Bool)
  | int (value : ℤ)
  | float (literal : Text)
  | str (points : List ℕ)
  | arr (items : List Json)
  | obj (members : List (List ℕ × Json))

def hexValue (c : Char) : Option ℕ :=
  let n := c.toNat
  if 48 ≤ n ∧ n ≤ 57 then some (n - 48)
  else if 65 ≤ n ∧ n ≤ 70 then some (n - 55)
  else if 97 ≤ n ∧ n ≤ 102 then some (n - 87)
  else none

/-! ## Reading -/

def isJsonSpace (c : Char) : Bool := c == ' ' || c == '\t' || c == '\n' || c == '\r'

def skipSpace (text : Text) : Text := text.dropWhile isJsonSpace

def hex4 (a b c d : Char) : Option ℕ := do
  let a ← hexValue a
  let b ← hexValue b
  let c ← hexValue c
  let d ← hexValue d
  pure (((a * 16 + b) * 16 + c) * 16 + d)

def shortEscape : Char → Option ℕ
  | '"' => some 0x22
  | '\\' => some 0x5C
  | '/' => some 0x2F
  | 'b' => some 0x08
  | 'f' => some 0x0C
  | 'n' => some 0x0A
  | 'r' => some 0x0D
  | 't' => some 0x09
  | _ => none

/-- A high surrogate escape joins with a low one right after it. -/
def joinSurrogates (points : List ℕ) : List ℕ :=
  match points with
  | high :: low :: rest =>
      if 0xD800 ≤ high ∧ high < 0xDC00 ∧ 0xDC00 ≤ low ∧ low < 0xE000 then
        (0x10000 + (high - 0xD800) * 1024 + (low - 0xDC00)) :: rest
      else points
  | _ => points

/-- The rest of a string literal after its opening quote. -/
def scanString : Text → Option (List ℕ × Text)
  | [] => none
  | c :: rest =>
      if c = '"' then some ([], rest)
      else if c = '\\' then
        match rest with
        | [] => none
        | escape :: rest =>
            if escape = 'u' then
              match rest with
              | a :: b :: c :: d :: rest =>
                  match hex4 a b c d with
                  | none => none
                  | some point =>
                      (scanString rest).map fun scanned =>
                        -- Only an escape may complete a pair, never a raw character:
                        -- raw characters are scalar values.
                        (joinSurrogates (point :: scanned.1), scanned.2)
              | _ => none
            else
              match shortEscape escape with
              | none => none
              | some point => (scanString rest).map fun scanned => (point :: scanned.1, scanned.2)
      else if c.toNat < 0x20 then none
      else (scanString rest).map fun scanned => (c.toNat :: scanned.1, scanned.2)

def scanInteger : Text → Option (Text × Text)
  | [] => none
  | c :: rest =>
      if c = '0' then some (['0'], rest)
      else if c.isDigit then
        some (c :: rest.takeWhile Char.isDigit, rest.dropWhile Char.isDigit)
      else none

def scanFraction (text : Text) : Text × Text :=
  match text with
  | '.' :: rest =>
      if (rest.takeWhile Char.isDigit).isEmpty then ([], text)
      else ('.' :: rest.takeWhile Char.isDigit, rest.dropWhile Char.isDigit)
  | _ => ([], text)

def scanExponent (text : Text) : Text × Text :=
  match text with
  | c :: rest =>
      if c = 'e' ∨ c = 'E' then
        let sign := rest.take 1 |>.filter fun s => s == '+' || s == '-'
        let digits := rest.drop sign.length
        if (digits.takeWhile Char.isDigit).isEmpty then ([], text)
        else (c :: sign ++ digits.takeWhile Char.isDigit, digits.dropWhile Char.isDigit)
      else ([], text)
  | [] => ([], text)

def scanMagnitude (negative : Bool) (text : Text) : Option (Json × Text) :=
  match scanInteger text with
  | none => none
  | some (digits, rest) =>
      let (fraction, rest) := scanFraction rest
      let (exponent, rest) := scanExponent rest
      if fraction.isEmpty && exponent.isEmpty then
        let magnitude : ℤ := Nat.ofDigitChars 10 digits 0
        some (.int (if negative then -magnitude else magnitude), rest)
      else
        some (.float ((if negative then ['-'] else []) ++ digits ++ fraction ++ exponent), rest)

def scanNumber : Text → Option (Json × Text)
  | '-' :: rest => scanMagnitude true rest
  | text => scanMagnitude false text

def literals : List (Text × Json) :=
  [("null".toList, .null), ("true".toList, .bool true), ("false".toList, .bool false),
    ("NaN".toList, .float "NaN".toList), ("Infinity".toList, .float "Infinity".toList),
    ("-Infinity".toList, .float "-Infinity".toList)]

def scanPlain (text : Text) : Option (Json × Text) :=
  match literals.find? fun literal => literal.1.isPrefixOf text with
  | some (word, value) => some (value, text.drop word.length)
  | none => scanNumber text

mutual

/-- The fuel bounds the nesting; every level consumes a character. -/
def scanValue : ℕ → Text → Option (Json × Text)
  | 0, _ => none
  | _ + 1, [] => none
  | fuel + 1, c :: rest =>
      if c = '"' then (scanString rest).map fun scanned => (.str scanned.1, scanned.2)
      else if c = '\x7b' then
        match skipSpace rest with
        | '\x7d' :: rest => some (.obj [], rest)
        | rest => (scanMembers fuel rest).map fun scanned => (.obj scanned.1, scanned.2)
      else if c = '[' then
        match skipSpace rest with
        | ']' :: rest => some (.arr [], rest)
        | rest => (scanItems fuel rest).map fun scanned => (.arr scanned.1, scanned.2)
      else scanPlain (c :: rest)

def scanMembers : ℕ → Text → Option (List (List ℕ × Json) × Text)
  | 0, _ => none
  | fuel + 1, '"' :: rest => do
      let (name, rest) ← scanString rest
      match skipSpace rest with
      | ':' :: rest => do
          let (value, rest) ← scanValue fuel (skipSpace rest)
          match skipSpace rest with
          | '\x7d' :: rest => some ([(name, value)], rest)
          | ',' :: rest => do
              let (members, rest) ← scanMembers fuel (skipSpace rest)
              some ((name, value) :: members, rest)
          | _ => none
      | _ => none
  | _ + 1, _ => none

def scanItems : ℕ → Text → Option (List Json × Text)
  | 0, _ => none
  | fuel + 1, text => do
      let (value, rest) ← scanValue fuel text
      match skipSpace rest with
      | ']' :: rest => some ([value], rest)
      | ',' :: rest => do
          let (items, rest) ← scanItems fuel (skipSpace rest)
          some (value :: items, rest)
      | _ => none

end

def loads (text : Text) : Option Json :=
  if text.head? = some (Char.ofNat 0xFEFF) then none
  else
    match scanValue (text.length + 1) (skipSpace text) with
    | some (value, rest) => if (skipSpace rest).isEmpty then some value else none
    | none => none

/-! ## Writing flat objects -/

inductive Scalar where
  | str (text : Text)
  | nat (value : ℕ)
  deriving DecidableEq

def Scalar.toJson : Scalar → Json
  | .str text => .str (text.map Char.toNat)
  | .nat value => .int value

def hexDigitLower (v : ℕ) : Char := Char.ofNat (if v < 10 then 48 + v else 87 + v)

def escapeChar (c : Char) : Text :=
  if c = '"' then ['\\', '"']
  else if c = '\\' then ['\\', '\\']
  else if c = '\n' then ['\\', 'n']
  else if c = '\r' then ['\\', 'r']
  else if c = '\t' then ['\\', 't']
  else if c = '\x08' then ['\\', 'b']
  else if c = '\x0c' then ['\\', 'f']
  else if c.toNat < 0x20 then
    ['\\', 'u', '0', '0', hexDigitLower (c.toNat / 16), hexDigitLower (c.toNat % 16)]
  else [c]

def renderString (text : Text) : Text := '"' :: (text.flatMap escapeChar ++ ['"'])

def renderScalar : Scalar → Text
  | .str text => renderString text
  | .nat value => Nat.toDigits 10 value

def renderMember (member : Text × Scalar) : Text :=
  renderString member.1 ++ ':' :: renderScalar member.2

/-- `json.dumps(object, separators=(",", ":"), ensure_ascii=False)` -/
def renderObject : List (Text × Scalar) → Text
  | [] => ['\x7b', '\x7d']
  | member :: members =>
      '\x7b' :: (renderMember member ++ members.flatMap (fun other => ',' :: renderMember other) ++
        ['\x7d'])

/-! ### Strings -/

theorem hexValue_lower : ∀ v < 16, hexValue (hexDigitLower v) = some v := by decide

theorem joinSurrogates_low {point : ℕ} (low : point < 0xD800) (points : List ℕ) :
    joinSurrogates (point :: points) = point :: points := by
  cases points with
  | nil => rfl
  | cons next rest => rw [joinSurrogates, if_neg (by omega)]

theorem scanString_shortEscape {escape : Char} {point : ℕ}
    (known : shortEscape escape = some point) (short : escape ≠ 'u') (rest : Text) :
    scanString ('\\' :: escape :: rest) =
      (scanString rest).map fun scanned => (point :: scanned.1, scanned.2) := by
  rw [scanString.eq_def]
  simp only [Char.reduceEq, if_true, if_false, short, known]

theorem scanString_close (rest : Text) : scanString ('"' :: rest) = some ([], rest) := by
  rw [scanString.eq_def]
  simp only [if_true]

theorem scanString_escapeChar (c : Char) (rest : Text) :
    scanString (escapeChar c ++ rest) =
      (scanString rest).map fun scanned => (c.toNat :: scanned.1, scanned.2) := by
  unfold escapeChar
  by_cases quote : c = '"'
  · subst quote
    exact scanString_shortEscape rfl (by decide) rest
  by_cases backslash : c = '\\'
  · subst backslash
    exact scanString_shortEscape rfl (by decide) rest
  by_cases newline : c = '\n'
  · subst newline
    exact scanString_shortEscape rfl (by decide) rest
  by_cases carriage : c = '\r'
  · subst carriage
    exact scanString_shortEscape rfl (by decide) rest
  by_cases tab : c = '\t'
  · subst tab
    exact scanString_shortEscape rfl (by decide) rest
  by_cases backspace : c = '\x08'
  · subst backspace
    exact scanString_shortEscape rfl (by decide) rest
  by_cases formfeed : c = '\x0c'
  · subst formfeed
    exact scanString_shortEscape rfl (by decide) rest
  by_cases control : c.toNat < 0x20
  · have high := hexValue_lower (c.toNat / 16) (by omega)
    have low := hexValue_lower (c.toNat % 16) (by omega)
    have zero : hexValue '0' = some 0 := by decide
    have point : ((0 * 16 + 0) * 16 + c.toNat / 16) * 16 + c.toNat % 16 = c.toNat := by omega
    have escaped : hex4 '0' '0' (hexDigitLower (c.toNat / 16)) (hexDigitLower (c.toNat % 16)) =
        some c.toNat := by
      simp only [hex4, zero, high, low, Option.bind_eq_bind, Option.bind_some, point]
      rfl
    simp only [quote, backslash, newline, carriage, tab, backspace, formfeed, control, if_true,
      if_false, List.cons_append, List.nil_append]
    rw [scanString.eq_def]
    simp only [Char.reduceEq, if_true, if_false, escaped]
    congr 1
    funext scanned
    rw [joinSurrogates_low (by omega)]
  · simp only [quote, backslash, newline, carriage, tab, backspace, formfeed, control, if_false,
      List.singleton_append]
    rw [scanString.eq_def]
    simp only [quote, backslash, control, if_false]

theorem scanString_text (text rest : Text) :
    scanString (text.flatMap escapeChar ++ '"' :: rest) = some (text.map Char.toNat, rest) := by
  induction text with
  | nil => exact scanString_close rest
  | cons c tail ih =>
      rw [List.flatMap_cons, List.append_assoc, scanString_escapeChar, ih]
      rfl

/-! ### Numbers -/

theorem toDigits_head_ne_zero (n : ℕ) (positive : 0 < n) :
    ∀ c, (Nat.toDigits 10 n).head? = some c → c ≠ '0' := by
  induction n using Nat.strong_induction_on with
  | _ n ih =>
      intro c first
      by_cases small : n < 10
      · rw [Nat.toDigits_of_lt_base small] at first
        cases first
        interval_cases n <;> decide
      · rw [Nat.toDigits_of_base_le (by decide) (by omega)] at first
        have nonempty : Nat.toDigits 10 (n / 10) ≠ [] := Nat.toDigits_ne_nil
        rw [List.head?_append_of_ne_nil _ nonempty] at first
        exact ih (n / 10) (by omega) (by omega) c first

theorem digits_takeWhile (digits rest : Text) (allDigits : ∀ c ∈ digits, c.isDigit = true)
    (stops : ∀ c, rest.head? = some c → c.isDigit = false) :
    (digits ++ rest).takeWhile Char.isDigit = digits ∧
      (digits ++ rest).dropWhile Char.isDigit = rest := by
  have stopped : rest.takeWhile Char.isDigit = [] ∧ rest.dropWhile Char.isDigit = rest := by
    cases rest with
    | nil => exact ⟨rfl, rfl⟩
    | cons c tail => simp [stops c rfl]
  rw [List.takeWhile_append_of_pos allDigits, List.dropWhile_append_of_pos allDigits,
    stopped.1, stopped.2, List.append_nil]
  exact ⟨rfl, rfl⟩

/-- What may follow a number inside an object. -/
def Separator (c : Char) : Prop := c = ',' ∨ c = '\x7d'

theorem scanInteger_toDigits (n : ℕ) {sep : Char} (separator : Separator sep) (rest : Text) :
    scanInteger (Nat.toDigits 10 n ++ sep :: rest) = some (Nat.toDigits 10 n, sep :: rest) := by
  have sepNotDigit : sep.isDigit = false := by rcases separator with rfl | rfl <;> rfl
  by_cases zero : n = 0
  · subst zero
    rfl
  · have noZero := toDigits_head_ne_zero n (Nat.pos_of_ne_zero zero)
    have allDigits : ∀ c ∈ Nat.toDigits 10 n, c.isDigit = true := fun c member =>
      Nat.isDigit_of_mem_toDigits (by decide) (by decide) member
    cases digits : Nat.toDigits 10 n with
    | nil => exact absurd digits Nat.toDigits_ne_nil
    | cons d ds =>
        rw [digits] at noZero allDigits
        obtain ⟨taken, dropped⟩ := digits_takeWhile ds (sep :: rest)
          (fun c member => allDigits c (List.mem_cons_of_mem _ member))
          (fun c first => by cases first; exact sepNotDigit)
        rw [List.cons_append, scanInteger, if_neg (noZero d rfl),
          if_pos (allDigits d List.mem_cons_self), taken, dropped]

theorem scanMagnitude_toDigits (n : ℕ) {sep : Char} (separator : Separator sep) (rest : Text) :
    scanMagnitude false (Nat.toDigits 10 n ++ sep :: rest) = some (.int n, sep :: rest) := by
  have plain : scanFraction (sep :: rest) = ([], sep :: rest) ∧
      scanExponent (sep :: rest) = ([], sep :: rest) := by
    rcases separator with rfl | rfl <;> exact ⟨rfl, rfl⟩
  unfold scanMagnitude
  rw [scanInteger_toDigits n separator]
  simp [plain, Nat.ofDigitChars_ten_toDigits]

theorem scanPlain_toDigits (n : ℕ) {sep : Char} (separator : Separator sep) (rest : Text) :
    scanPlain (Nat.toDigits 10 n ++ sep :: rest) = some (.int n, sep :: rest) := by
  have magnitude := scanMagnitude_toDigits n separator rest
  cases digits : Nat.toDigits 10 n with
  | nil => exact absurd digits Nat.toDigits_ne_nil
  | cons d ds =>
      rw [digits] at magnitude
      have isDigit : d.isDigit = true :=
        Nat.isDigit_of_mem_toDigits (b := 10) (n := n) (by decide) (by decide)
          (by rw [digits]; exact List.mem_cons_self)
      have notLetter : ∀ c : Char, c.isDigit = false → d ≠ c := by
        rintro c noDigit rfl
        rw [isDigit] at noDigit
        exact Bool.noConfusion noDigit
      have noLiteral : (literals.find? fun literal =>
          literal.1.isPrefixOf (d :: ds ++ sep :: rest)) = none := by
        simp [literals, List.isPrefixOf, (notLetter 'n' rfl).symm, (notLetter 't' rfl).symm,
          (notLetter 'f' rfl).symm, (notLetter 'N' rfl).symm, (notLetter 'I' rfl).symm,
          (notLetter '-' rfl).symm]
      rw [scanPlain, noLiteral]
      simp only
      rw [List.cons_append, scanNumber.eq_def]
      split
      · rename_i heq
        exact absurd (List.cons.inj heq).1 (notLetter '-' rfl)
      · rw [← List.cons_append]
        exact magnitude

/-! ### Objects -/

theorem skipSpace_of_head {c : Char} (solid : isJsonSpace c = false) (rest : Text) :
    skipSpace (c :: rest) = c :: rest := by
  simp [skipSpace, solid]

theorem skipSpace_colon (rest : Text) : skipSpace (':' :: rest) = ':' :: rest :=
  skipSpace_of_head rfl rest

theorem skipSpace_separator {sep : Char} (separator : Separator sep) (rest : Text) :
    skipSpace (sep :: rest) = sep :: rest := by
  rcases separator with rfl | rfl <;> exact skipSpace_of_head rfl rest

theorem skipSpace_renderMember (member : Text × Scalar) (rest : Text) :
    skipSpace (renderMember member ++ rest) = renderMember member ++ rest :=
  skipSpace_of_head rfl _

theorem scanValue_scalar (fuel : ℕ) (scalar : Scalar) {sep : Char} (separator : Separator sep)
    (rest : Text) :
    scanValue (fuel + 1) (skipSpace (renderScalar scalar ++ sep :: rest)) =
      some (scalar.toJson, sep :: rest) := by
  cases scalar with
  | str text =>
      rw [renderScalar, renderString, List.cons_append, List.append_assoc, List.singleton_append,
        skipSpace_of_head rfl, scanValue, if_pos rfl, scanString_text]
      rfl
  | nat n =>
      have plain := scanPlain_toDigits n separator rest
      rw [renderScalar]
      cases digits : Nat.toDigits 10 n with
      | nil => exact absurd digits Nat.toDigits_ne_nil
      | cons d ds =>
          rw [digits] at plain
          have isDigit : d.isDigit = true :=
            Nat.isDigit_of_mem_toDigits (b := 10) (n := n) (by decide) (by decide)
              (by rw [digits]; exact List.mem_cons_self)
          have other : ∀ c : Char, c.isDigit = false → d ≠ c := by
            rintro c noDigit rfl
            rw [isDigit] at noDigit
            exact Bool.noConfusion noDigit
          have solid : isJsonSpace d = false := by
            simp [isJsonSpace, other ' ' rfl, other '\t' rfl, other '\n' rfl, other '\r' rfl]
          rw [List.cons_append, skipSpace_of_head solid, scanValue, if_neg (other '"' rfl),
            if_neg (other '\x7b' rfl), if_neg (other '[' rfl)]
          exact plain

theorem scanMembers_render (members : List (Text × Scalar)) : ∀ (member : Text × Scalar)
    (fuel : ℕ), members.length + 1 < fuel → ∀ rest : Text,
      scanMembers fuel (renderMember member ++
        (members.flatMap (fun other => ',' :: renderMember other) ++ '\x7d' :: rest)) =
      some ((member :: members).map fun other => (other.1.map Char.toNat, other.2.toJson),
        rest) := by
  induction members with
  | nil =>
      intro member fuel enough rest
      obtain ⟨fuel, rfl⟩ : ∃ n, fuel = n + 2 := ⟨fuel - 2, by simp at enough; omega⟩
      have closes : Separator '\x7d' := Or.inr rfl
      have value := scanValue_scalar fuel member.2 closes rest
      rw [renderMember, renderString, List.flatMap_nil, List.nil_append]
      simp only [List.cons_append, List.append_assoc, List.nil_append]
      rw [scanMembers, scanString_text]
      simp only [Option.bind_eq_bind, Option.bind_some, skipSpace_colon, value,
        skipSpace_separator closes]
      rfl
  | cons next members ih =>
      intro member fuel enough rest
      obtain ⟨fuel, rfl⟩ : ∃ n, fuel = n + 2 := ⟨fuel - 2, by simp at enough; omega⟩
      rw [List.length_cons] at enough
      have continues : Separator ',' := Or.inl rfl
      have continued := ih next (fuel + 1) (by omega) rest
      have value := scanValue_scalar fuel member.2 continues (renderMember next ++
        (members.flatMap (fun other => ',' :: renderMember other) ++ '\x7d' :: rest))
      rw [renderMember, renderString, List.flatMap_cons]
      simp only [List.cons_append, List.append_assoc, List.nil_append]
      rw [scanMembers, scanString_text]
      simp only [Option.bind_eq_bind, Option.bind_some, skipSpace_colon, value,
        skipSpace_separator continues, skipSpace_renderMember, continued]
      rfl

theorem length_le_length_flatMap_cons {α β : Type} (items : List α) (lead : α → β)
    (body : α → List β) : items.length ≤ (items.flatMap fun x => lead x :: body x).length := by
  induction items with
  | nil => exact Nat.zero_le _
  | cons item rest ih =>
      rw [List.flatMap_cons, List.length_append, List.length_cons, List.length_cons]
      omega

/-- A flat object is read back member for member, its strings as code points. -/
theorem loads_renderObject (members : List (Text × Scalar)) :
    loads (renderObject members) =
      some (.obj (members.map fun member => (member.1.map Char.toNat, member.2.toJson))) := by
  cases members with
  | nil => rfl
  | cons member members =>
      have commas := length_le_length_flatMap_cons members (fun _ => ',') renderMember
      have scanned := scanMembers_render members member (renderObject (member :: members)).length
        (by simp only [renderObject, List.length_cons, List.length_append, List.length_nil]; omega)
        []
      have body : renderObject (member :: members) = '\x7b' :: (renderMember member ++
          (members.flatMap (fun other => ',' :: renderMember other) ++ ['\x7d'])) := by
        rw [renderObject, List.append_assoc]
      have value : scanValue ((renderObject (member :: members)).length + 1)
          (skipSpace (renderObject (member :: members))) =
          some (.obj ((member :: members).map fun other =>
            (other.1.map Char.toNat, other.2.toJson)), []) := by
        generalize (renderObject (member :: members)).length = fuel at scanned ⊢
        rw [body, skipSpace_of_head rfl, scanValue, if_neg (by decide), if_pos rfl,
          skipSpace_renderMember]
        rw [renderMember, renderString, List.cons_append, List.cons_append] at scanned ⊢
        split
        · rename_i closing
          exact absurd (List.cons.inj closing).1 (by decide)
        · rw [scanned, Option.map_some]
      have noMark : (renderObject (member :: members)).head? ≠ some (Char.ofNat 0xFEFF) := by
        rw [body, List.head?_cons]
        decide
      rw [loads, if_neg noMark, value]
      rfl

end SupernoteTaskService.Foundation
