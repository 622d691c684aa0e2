import Mathlib

/-!
# UTF-8 and Base64

Octets are natural numbers.  `decodeUtf8` is the strict decoder: it refuses
overlong forms, surrogates and code points past the last plane.  `b64decode` is
the lenient one of the Python library: characters outside the alphabet are
skipped, a completed padding ends the input, and a text with a character outside
ASCII or with an incomplete last group is refused.
-/

set_option autoImplicit false

namespace SupernoteTaskService.Foundation

/-- A string as its sequence of Unicode scalar values. -/
abbrev Text := List Char

/-! ## UTF-8 -/

def encodeUtf8Char (c : Char) : List ℕ :=
  let n := c.toNat
  if n < 0x80 then [n]
  else if n < 0x800 then [0xC0 + n / 64, 0x80 + n % 64]
  else if n < 0x10000 then [0xE0 + n / 4096, 0x80 + n / 64 % 64, 0x80 + n % 64]
  else [0xF0 + n / 262144, 0x80 + n / 4096 % 64, 0x80 + n / 64 % 64, 0x80 + n % 64]

def encodeUtf8 (text : Text) : List ℕ := text.flatMap encodeUtf8Char

def tailBits (octet : ℕ) : Option ℕ :=
  if 0x80 ≤ octet ∧ octet ≤ 0xBF then some (octet - 0x80) else none

def scalarFrom (least code : ℕ) : Option Char :=
  if least ≤ code ∧ code.isValidChar then some (Char.ofNat code) else none

def decodeUtf8 : List ℕ → Option Text
  | [] => some []
  | a :: rest =>
      if a < 0x80 then
        (decodeUtf8 rest).map (Char.ofNat a :: ·)
      else if 0xC0 ≤ a ∧ a < 0xE0 then
        match rest with
        | b :: rest => do
            let x ← tailBits b
            let c ← scalarFrom 0x80 ((a - 0xC0) * 64 + x)
            (decodeUtf8 rest).map (c :: ·)
        | _ => none
      else if 0xE0 ≤ a ∧ a < 0xF0 then
        match rest with
        | b :: b' :: rest => do
            let x ← tailBits b
            let x' ← tailBits b'
            let c ← scalarFrom 0x800 (((a - 0xE0) * 64 + x) * 64 + x')
            (decodeUtf8 rest).map (c :: ·)
        | _ => none
      else if 0xF0 ≤ a ∧ a < 0xF8 then
        match rest with
        | b :: b' :: b'' :: rest => do
            let x ← tailBits b
            let x' ← tailBits b'
            let x'' ← tailBits b''
            let c ← scalarFrom 0x10000 ((((a - 0xF0) * 64 + x) * 64 + x') * 64 + x'')
            (decodeUtf8 rest).map (c :: ·)
        | _ => none
      else none

theorem tailBits_encoded {n : ℕ} (small : n < 64) : tailBits (0x80 + n) = some n := by
  rw [tailBits, if_pos (by omega), Nat.add_sub_cancel_left]

theorem scalarFrom_toNat {least code : ℕ} (c : Char) (form : least ≤ c.toNat)
    (same : code = c.toNat) : scalarFrom least code = some c := by
  have valid : c.toNat.isValidChar := c.valid
  subst same
  rw [scalarFrom, if_pos ⟨form, valid⟩, Char.ofNat_toNat]

theorem toNat_le_last (c : Char) : c.toNat < 0x110000 := by
  have valid : c.toNat.isValidChar := c.valid
  rcases valid with lower | ⟨-, upper⟩
  · omega
  · exact upper

/-! One equation for each form, by its leading octet. -/

theorem decodeUtf8_single {a : ℕ} (lead : a < 0x80) (rest : List ℕ) :
    decodeUtf8 (a :: rest) = (decodeUtf8 rest).map (Char.ofNat a :: ·) := by
  rw [decodeUtf8.eq_def]
  exact if_pos lead

theorem decodeUtf8_double {a x : ℕ} {c : Char} (lower : 0xC0 ≤ a) (upper : a < 0xE0)
    (small : x < 64) (scalar : scalarFrom 0x80 ((a - 0xC0) * 64 + x) = some c) (rest : List ℕ) :
    decodeUtf8 (a :: (0x80 + x) :: rest) = (decodeUtf8 rest).map (c :: ·) := by
  have notSingle : ¬ a < 0x80 := by omega
  rw [decodeUtf8.eq_def]
  simp only [notSingle, lower, upper, and_self, if_true, if_false, tailBits_encoded small,
    Option.bind_eq_bind, Option.bind_some, scalar]

theorem decodeUtf8_triple {a x x' : ℕ} {c : Char} (lower : 0xE0 ≤ a) (upper : a < 0xF0)
    (small : x < 64) (small' : x' < 64)
    (scalar : scalarFrom 0x800 (((a - 0xE0) * 64 + x) * 64 + x') = some c) (rest : List ℕ) :
    decodeUtf8 (a :: (0x80 + x) :: (0x80 + x') :: rest) = (decodeUtf8 rest).map (c :: ·) := by
  have notSingle : ¬ a < 0x80 := by omega
  have notDouble : ¬ (0xC0 ≤ a ∧ a < 0xE0) := by omega
  rw [decodeUtf8.eq_def]
  simp only [notSingle, notDouble, lower, upper, and_self, if_true, if_false,
    tailBits_encoded small, tailBits_encoded small', Option.bind_eq_bind, Option.bind_some, scalar]

theorem decodeUtf8_quadruple {a x x' x'' : ℕ} {c : Char} (lower : 0xF0 ≤ a) (upper : a < 0xF8)
    (small : x < 64) (small' : x' < 64) (small'' : x'' < 64)
    (scalar : scalarFrom 0x10000 ((((a - 0xF0) * 64 + x) * 64 + x') * 64 + x'') = some c)
    (rest : List ℕ) :
    decodeUtf8 (a :: (0x80 + x) :: (0x80 + x') :: (0x80 + x'') :: rest) =
      (decodeUtf8 rest).map (c :: ·) := by
  have notSingle : ¬ a < 0x80 := by omega
  have notDouble : ¬ (0xC0 ≤ a ∧ a < 0xE0) := by omega
  have notTriple : ¬ (0xE0 ≤ a ∧ a < 0xF0) := by omega
  rw [decodeUtf8.eq_def]
  simp only [notSingle, notDouble, notTriple, lower, upper, and_self, if_true, if_false,
    tailBits_encoded small, tailBits_encoded small', tailBits_encoded small'',
    Option.bind_eq_bind, Option.bind_some, scalar]

theorem decodeUtf8_char (c : Char) (rest : List ℕ) :
    decodeUtf8 (encodeUtf8Char c ++ rest) = (decodeUtf8 rest).map (c :: ·) := by
  have last := toNat_le_last c
  have sextet : ∀ n, n % 64 < 64 := fun n => Nat.mod_lt n (by decide)
  unfold encodeUtf8Char
  by_cases one : c.toNat < 0x80
  · rw [if_pos one, List.singleton_append, decodeUtf8_single one, Char.ofNat_toNat]
  by_cases two : c.toNat < 0x800
  · rw [if_neg one, if_pos two]
    exact decodeUtf8_double (by omega) (by omega) (sextet _)
      (scalarFrom_toNat c (by omega) (by omega)) rest
  by_cases three : c.toNat < 0x10000
  · rw [if_neg one, if_neg two, if_pos three]
    exact decodeUtf8_triple (by omega) (by omega) (sextet _) (sextet _)
      (scalarFrom_toNat c (by omega) (by omega)) rest
  · rw [if_neg one, if_neg two, if_neg three]
    exact decodeUtf8_quadruple (by omega) (by omega) (sextet _) (sextet _) (sextet _)
      (scalarFrom_toNat c (by omega) (by omega)) rest

theorem decodeUtf8_encodeUtf8 (text : Text) : decodeUtf8 (encodeUtf8 text) = some text := by
  induction text with
  | nil => rfl
  | cons c rest ih =>
      rw [encodeUtf8, List.flatMap_cons, decodeUtf8_char]
      rw [encodeUtf8] at ih
      rw [ih, Option.map_some]

theorem encodeUtf8_octets (text : Text) : ∀ octet ∈ encodeUtf8 text, octet < 256 := by
  intro octet member
  obtain ⟨c, -, inChar⟩ := List.mem_flatMap.mp member
  have last := toNat_le_last c
  unfold encodeUtf8Char at inChar
  dsimp only at inChar
  split at inChar
  · simp only [List.mem_singleton] at inChar
    omega
  split at inChar
  · simp only [List.mem_cons, List.not_mem_nil, or_false] at inChar
    omega
  split at inChar
  · simp only [List.mem_cons, List.not_mem_nil, or_false] at inChar
    omega
  · simp only [List.mem_cons, List.not_mem_nil, or_false] at inChar
    omega

/-! ## Base64 -/

def sextetChar (v : ℕ) : Char :=
  if v < 26 then Char.ofNat (65 + v)
  else if v < 52 then Char.ofNat (71 + v)
  else if v < 62 then Char.ofNat (v - 4)
  else if v = 62 then '+'
  else '/'

def charSextet (c : Char) : Option ℕ :=
  let n := c.toNat
  if 65 ≤ n ∧ n ≤ 90 then some (n - 65)
  else if 97 ≤ n ∧ n ≤ 122 then some (n - 71)
  else if 48 ≤ n ∧ n ≤ 57 then some (n + 4)
  else if n = 43 then some 62
  else if n = 47 then some 63
  else none

def b64encode : List ℕ → Text
  | [] => []
  | [a] => [sextetChar (a / 4), sextetChar (a % 4 * 16), '=', '=']
  | [a, b] => [sextetChar (a / 4), sextetChar (a % 4 * 16 + b / 16),
      sextetChar (b % 16 * 4), '=']
  | a :: b :: c :: rest =>
      sextetChar (a / 4) :: sextetChar (a % 4 * 16 + b / 16) ::
        sextetChar (b % 16 * 4 + c / 64) :: sextetChar (c % 64) :: b64encode rest

/-- One pass over the text.  `quad` counts the alphabet characters of the current
group, `left` holds the bits they leave over and `pads` the padding seen since. -/
def a2bBase64 : (quad left pads : ℕ) → Text → Option (List ℕ)
  | quad, _, _, [] => if quad = 0 then some [] else none
  | quad, left, pads, c :: rest =>
      if c = '=' then
        if 2 ≤ quad ∧ 4 ≤ quad + (pads + 1) then some []
        else a2bBase64 quad left (if 2 ≤ quad then pads + 1 else pads) rest
      else
        match charSextet c with
        | none => a2bBase64 quad left pads rest
        | some v =>
            if quad = 0 then a2bBase64 1 v 0 rest
            else if quad = 1 then (a2bBase64 2 (v % 16) 0 rest).map ((left * 4 + v / 16) :: ·)
            else if quad = 2 then (a2bBase64 3 (v % 4) 0 rest).map ((left * 16 + v / 4) :: ·)
            else (a2bBase64 0 0 0 rest).map ((left * 64 + v) :: ·)

def b64decode (text : Text) : Option (List ℕ) :=
  if text.all fun c => c.toNat < 128 then a2bBase64 0 0 0 text else none

theorem charSextet_sextetChar : ∀ v < 64, charSextet (sextetChar v) = some v := by decide

theorem sextetChar_ne_pad : ∀ v < 64, sextetChar v ≠ '=' := by decide

theorem sextetChar_ascii : ∀ v < 64, (sextetChar v).toNat < 128 := by decide

theorem a2bBase64_sextet {v : ℕ} (small : v < 64) (quad left pads : ℕ) (rest : Text) :
    a2bBase64 quad left pads (sextetChar v :: rest) =
      if quad = 0 then a2bBase64 1 v 0 rest
      else if quad = 1 then (a2bBase64 2 (v % 16) 0 rest).map ((left * 4 + v / 16) :: ·)
      else if quad = 2 then (a2bBase64 3 (v % 4) 0 rest).map ((left * 16 + v / 4) :: ·)
      else (a2bBase64 0 0 0 rest).map ((left * 64 + v) :: ·) := by
  rw [a2bBase64, if_neg (sextetChar_ne_pad v small)]
  simp only [charSextet_sextetChar v small]

theorem a2bBase64_b64encode (octets : List ℕ) (bounded : ∀ octet ∈ octets, octet < 256) :
    a2bBase64 0 0 0 (b64encode octets) = some octets := by
  induction octets using b64encode.induct with
  | case1 => rfl
  | case2 a =>
      have aLt := bounded a (by simp)
      simp (disch := omega) only [b64encode, a2bBase64_sextet, if_true, one_ne_zero, if_false]
      simp [a2bBase64, Nat.div_add_mod']
  | case3 a b =>
      have aLt := bounded a (by simp)
      have bLt := bounded b (by simp)
      have first : a / 4 * 4 + (a % 4 * 16 + b / 16) / 16 = a := by omega
      have second : (a % 4 * 16 + b / 16) % 16 * 16 + b % 16 * 4 / 4 = b := by omega
      simp (disch := omega) only [b64encode, a2bBase64_sextet, if_true, one_ne_zero, if_false,
        OfNat.ofNat_ne_zero, OfNat.ofNat_ne_one, first, second]
      simp [a2bBase64]
  | case4 a b c rest ih =>
      have aLt := bounded a (by simp)
      have bLt := bounded b (by simp)
      have cLt := bounded c (by simp)
      have decoded := ih fun octet member => bounded octet (by simp [member])
      have first : a / 4 * 4 + (a % 4 * 16 + b / 16) / 16 = a := by omega
      have second : (a % 4 * 16 + b / 16) % 16 * 16 + (b % 16 * 4 + c / 64) / 4 = b := by omega
      simp (disch := omega) only [b64encode, a2bBase64_sextet, if_true, one_ne_zero, if_false,
        OfNat.ofNat_ne_zero, OfNat.ofNat_ne_one, first, second]
      simp [decoded]
      omega

theorem b64encode_ascii (octets : List ℕ) (bounded : ∀ octet ∈ octets, octet < 256) :
    ∀ c ∈ b64encode octets, c.toNat < 128 := by
  induction octets using b64encode.induct with
  | case1 => simp [b64encode]
  | case2 a =>
      have aLt := bounded a (by simp)
      have first := sextetChar_ascii (a / 4) (by omega)
      have second := sextetChar_ascii (a % 4 * 16) (by omega)
      simp [b64encode, first, second]
  | case3 a b =>
      have aLt := bounded a (by simp)
      have bLt := bounded b (by simp)
      have first := sextetChar_ascii (a / 4) (by omega)
      have second := sextetChar_ascii (a % 4 * 16 + b / 16) (by omega)
      have third := sextetChar_ascii (b % 16 * 4) (by omega)
      simp [b64encode, first, second, third]
  | case4 a b c rest ih =>
      have aLt := bounded a (by simp)
      have bLt := bounded b (by simp)
      have cLt := bounded c (by simp)
      have first := sextetChar_ascii (a / 4) (by omega)
      have second := sextetChar_ascii (a % 4 * 16 + b / 16) (by omega)
      have third := sextetChar_ascii (b % 16 * 4 + c / 64) (by omega)
      have fourth := sextetChar_ascii (c % 64) (by omega)
      have tail := ih fun octet member => bounded octet (by simp [member])
      intro d member
      simp only [b64encode, List.mem_cons] at member
      rcases member with rfl | rfl | rfl | rfl | member
      · exact first
      · exact second
      · exact third
      · exact fourth
      · exact tail d member

theorem b64decode_b64encode (octets : List ℕ) (bounded : ∀ octet ∈ octets, octet < 256) :
    b64decode (b64encode octets) = some octets := by
  have ascii : (b64encode octets).all (fun c => decide (c.toNat < 128)) = true := by
    rw [List.all_eq_true]
    intro c member
    exact decide_eq_true (b64encode_ascii octets bounded c member)
  rw [b64decode, if_pos ascii, a2bBase64_b64encode octets bounded]

end SupernoteTaskService.Foundation
