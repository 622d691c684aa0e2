import SupernoteTaskService.Security

/-!
# The gate accepts exactly the configured keys

The configured keys are the non-empty segments between the commas of the setting, without
the whitespace around them.  A header carries a key when what it presents is that key up to
surrounding whitespace.  The parsers of the setting and of the headers agree on every text,
and the limiter has no part in letting a request through.
-/

set_option autoImplicit false

namespace SupernoteTaskService

open Foundation

/-! ## Segments -/

section Segments
variable {α : Type} [DecidableEq α] {separator : α}

/-- A stretch of the text without separators, with a separator or an end on either side. -/
def IsSegment (separator : α) (text segment : List α) : Prop :=
  separator ∉ segment ∧ ∃ before after, text = before ++ segment ++ after ∧
    (before = [] ∨ ∃ front, before = front ++ [separator]) ∧
    (after = [] ∨ ∃ back, after = separator :: back)

theorem IsSegment.mem_splitOn {text segment : List α} (isSegment : IsSegment separator text segment) :
    segment ∈ text.splitOn separator := by
  obtain ⟨pure_, before, after, rfl, opens, closes⟩ := isSegment
  have first : segment ∈ (segment ++ after).splitOn separator := by
    rcases closes with rfl | ⟨back, rfl⟩
    · rw [List.append_nil, List.splitOn_eq_singleton pure_]
      exact List.mem_singleton_self segment
    · rw [List.splitOn_append_cons_self_of_not_mem pure_]
      exact List.mem_cons_self
  rcases opens with rfl | ⟨front, rfl⟩
  · exact first
  · rw [List.append_assoc, List.append_assoc, List.singleton_append,
      List.splitOn_append_cons_self]
    exact List.mem_append_right _ first

theorem isSegment_of_mem_splitOn (length : ℕ) : ∀ {text segment : List α}, text.length ≤ length →
    segment ∈ text.splitOn separator → IsSegment separator text segment := by
  induction length with
  | zero =>
      intro text segment short member
      rw [List.length_eq_zero_iff.mp (Nat.le_zero.mp short), List.splitOn_nil,
        List.mem_singleton] at member
      subst member
      exact ⟨List.not_mem_nil, [], text, rfl, Or.inl rfl,
        Or.inl (List.length_eq_zero_iff.mp (Nat.le_zero.mp short))⟩
  | succ length ih =>
      intro text segment short member
      by_cases separated : separator ∈ text
      · obtain ⟨front, back, rfl, pure_⟩ := List.eq_append_cons_of_mem separated
        rw [List.splitOn_append_cons_self_of_not_mem pure_, List.mem_cons] at member
        rcases member with rfl | later
        · exact ⟨pure_, [], separator :: back, rfl, Or.inl rfl, Or.inr ⟨back, rfl⟩⟩
        · have shorter : back.length ≤ length := by
            rw [List.length_append, List.length_cons] at short
            omega
          obtain ⟨pureLater, before, after, rfl, opens, closes⟩ := ih shorter later
          refine ⟨pureLater, front ++ separator :: before, after, by simp, Or.inr ?_, closes⟩
          rcases opens with rfl | ⟨front', rfl⟩
          · exact ⟨front, rfl⟩
          · exact ⟨front ++ separator :: front', by simp⟩
      · rw [List.splitOn_eq_singleton separated, List.mem_singleton] at member
        subst member
        exact ⟨separated, [], [], by simp, Or.inl rfl, Or.inl rfl⟩

theorem mem_splitOn_iff {text segment : List α} :
    segment ∈ text.splitOn separator ↔ IsSegment separator text segment :=
  ⟨isSegment_of_mem_splitOn text.length (Nat.le_refl _), IsSegment.mem_splitOn⟩

end Segments

/-! ## What the setting and the headers say -/

/-- A non-empty trimmed segment of the setting. -/
def ConfiguredKey (apiKeys key : Text) : Prop :=
  key ≠ [] ∧ ∃ segment, IsSegment ',' apiKeys segment ∧ strip segment = key

/-- The header has a scheme that is `bearer` in some case, and this after the space. -/
def BearerCredential (authorization : Option Text) (credential : Text) : Prop :=
  credential ≠ [] ∧ ∃ scheme, lower scheme = "bearer".toList ∧
    authorization = some (scheme ++ ' ' :: credential)

def CarriesKey (authorization xApiKey : Option Text) (key : Text) : Prop :=
  (∃ credential, BearerCredential authorization credential ∧ strip credential = key) ∨
    ∃ value, xApiKey = some value ∧ strip value = key

theorem space_notMem_of_lower {scheme : Text} (bearer : lower scheme = "bearer".toList) :
    ' ' ∉ scheme := by
  intro member
  have lowered : Char.toLower ' ' ∈ lower scheme := List.mem_map_of_mem member
  rw [bearer] at lowered
  exact absurd lowered (by decide)

theorem partitionSpace_append {scheme : Text} (noSpace : ' ' ∉ scheme) (credential : Text) :
    partitionSpace (scheme ++ ' ' :: credential) = (scheme, credential) := by
  have kept : ∀ c ∈ scheme, (decide (c ≠ ' ')) = true := by
    intro c member
    exact decide_eq_true fun isSpace => noSpace (isSpace ▸ member)
  rw [partitionSpace, List.takeWhile_append_of_pos kept, List.dropWhile_append_of_pos kept]
  simp

theorem eq_of_partitionSpace {text scheme credential : Text} (nonempty : credential ≠ [])
    (parts : partitionSpace text = (scheme, credential)) : text = scheme ++ ' ' :: credential := by
  obtain ⟨rfl, rfl⟩ := Prod.mk.inj parts
  have whole := List.takeWhile_append_dropWhile (p := (· ≠ ' ')) (l := text)
  cases rest : text.dropWhile (· ≠ ' ') with
  | nil =>
      rw [rest] at nonempty
      exact absurd rfl nonempty
  | cons c tail =>
      have isSpace : c = ' ' := by
        have stopped := List.head?_dropWhile_not (p := (· ≠ ' ')) (l := text)
        rw [rest] at stopped
        simpa using stopped
      rw [rest, isSpace] at whole
      rw [List.tail_cons]
      exact whole.symm

theorem bearer_iff (authorization : Option Text) (credential : Text) :
    BearerCredential authorization credential ↔
      lower (partitionSpace (authorization.getD [])).1 = "bearer".toList ∧ credential ≠ [] ∧
        (partitionSpace (authorization.getD [])).2 = credential := by
  constructor
  · intro ⟨nonempty, scheme, bearer, header⟩
    rw [header, Option.getD_some, partitionSpace_append (space_notMem_of_lower bearer)]
    exact ⟨bearer, nonempty, rfl⟩
  · intro ⟨bearer, nonempty, second⟩
    have parts : partitionSpace (authorization.getD []) = (_, credential) := Prod.ext rfl second
    have text := eq_of_partitionSpace nonempty parts
    cases authorization with
    | none => exact absurd text.symm (by simp)
    | some header => exact ⟨nonempty, _, bearer, congrArg some text⟩

theorem extractPresentedKey_of_bearer {authorization : Option Text} {credential : Text}
    (bearer : BearerCredential authorization credential) (xApiKey : Option Text) :
    extractPresentedKey authorization xApiKey = some (strip credential) := by
  obtain ⟨isBearer, nonempty, second⟩ := (bearer_iff authorization credential).mp bearer
  unfold extractPresentedKey
  dsimp only
  rw [second, if_pos ⟨isBearer, nonempty⟩]

theorem extractPresentedKey_of_not_bearer {authorization : Option Text}
    (notBearer : ∀ credential, ¬ BearerCredential authorization credential)
    (xApiKey : Option Text) :
    extractPresentedKey authorization xApiKey = (xApiKey.filter fun value => value ≠ []).map strip := by
  have refused : ¬ (lower (partitionSpace (authorization.getD [])).1 = "bearer".toList ∧
      (partitionSpace (authorization.getD [])).2 ≠ []) := fun ⟨bearer, credential⟩ =>
    notBearer _ ((bearer_iff authorization _).mpr ⟨bearer, credential, rfl⟩)
  unfold extractPresentedKey
  dsimp only
  rw [if_neg refused]
  cases xApiKey with
  | none => rfl
  | some value =>
      cases value with
      | nil => rfl
      | cons c rest => rfl

theorem carriesKey_of_extractPresentedKey {authorization xApiKey : Option Text} {key : Text}
    (presented : extractPresentedKey authorization xApiKey = some key) :
    CarriesKey authorization xApiKey key := by
  by_cases bearer : ∃ credential, BearerCredential authorization credential
  · obtain ⟨credential, isBearer⟩ := bearer
    rw [extractPresentedKey_of_bearer isBearer, Option.some.injEq] at presented
    exact Or.inl ⟨credential, isBearer, presented⟩
  · rw [extractPresentedKey_of_not_bearer (not_exists.mp bearer), Option.map_eq_some_iff] at presented
    obtain ⟨value, kept, same⟩ := presented
    exact Or.inr ⟨value, (Option.filter_eq_some_iff.mp kept).1, same⟩

/-! ## Keys -/

theorem strip_strip (text : Text) : strip (strip text) = strip text := by
  have trimmed : ∀ rest : Text, rest <+: text.dropWhile isPythonSpace →
      rest.dropWhile isPythonSpace = rest := by
    intro rest isPrefix
    cases rest with
    | nil => rfl
    | cons c rest =>
        obtain ⟨tail, whole⟩ := isPrefix
        have kept := List.head?_dropWhile_not (p := isPythonSpace) (l := text)
        rw [← whole, List.cons_append, List.head?_cons] at kept
        exact List.dropWhile_cons_of_neg (by simpa using kept)
  have left : (strip text).dropWhile isPythonSpace = strip text :=
    trimmed _ (List.rdropWhile_prefix isPythonSpace (l := text.dropWhile isPythonSpace))
  have right : ((strip text).reverse.dropWhile isPythonSpace).reverse = strip text :=
    List.rdropWhile_idempotent isPythonSpace (text.dropWhile isPythonSpace)
  rw [strip, left, right]

theorem ConfiguredKey.strip_eq {apiKeys key : Text} (configured : ConfiguredKey apiKeys key) :
    strip key = key := by
  obtain ⟨-, segment, -, rfl⟩ := configured
  exact strip_strip segment

section Digests
variable (sha256 : List ℕ → Text)

theorem mem_apiKeyHashes (settings : AccessSettings) (digest : Text) :
    digest ∈ settings.apiKeyHashes sha256 ↔
      ∃ key, ConfiguredKey settings.apiKeys key ∧ hashKey sha256 key = digest := by
  unfold AccessSettings.apiKeyHashes
  simp only [List.mem_dedup, List.mem_map, List.mem_filter, mem_splitOn_iff, decide_eq_true_eq]
  constructor
  · rintro ⟨_, ⟨segment, ⟨isSegment, nonempty⟩, rfl⟩, rfl⟩
    exact ⟨strip segment, ⟨nonempty, segment, isSegment, rfl⟩, rfl⟩
  · rintro ⟨_, ⟨nonempty, segment, isSegment, rfl⟩, rfl⟩
    exact ⟨_, ⟨segment, ⟨isSegment, nonempty⟩, rfl⟩, rfl⟩

theorem keyMatches_iff (presented : Text) (validHashes : List Text) :
    keyMatches sha256 presented validHashes = true ↔ hashKey sha256 presented ∈ validHashes := by
  have loop : ∀ (hashes : List Text) (matched : Bool),
      hashes.foldl (fun matched valid =>
          if hashKey sha256 presented = valid then true else matched) matched = true ↔
        matched = true ∨ hashKey sha256 presented ∈ hashes := by
    intro hashes
    induction hashes with
    | nil => exact fun matched => by simp
    | cons valid hashes ih =>
        intro matched
        rw [List.foldl_cons, ih, List.mem_cons]
        by_cases hit : hashKey sha256 presented = valid
        · simp [hit]
        · simp [hit]
  rw [keyMatches, loop]
  simp

variable {sha256} in
theorem validateApiKey_iff (injective : Function.Injective (hashKey sha256))
    (settings : AccessSettings) (authorization xApiKey : Option Text) :
    (∃ callerId, validateApiKey sha256 settings authorization xApiKey = some callerId) ↔
      ∃ key, extractPresentedKey authorization xApiKey = some key ∧
        ConfiguredKey settings.apiKeys key := by
  have isConfigured : ∀ key, hashKey sha256 key ∈ settings.apiKeyHashes sha256 ↔
      ConfiguredKey settings.apiKeys key := by
    intro key
    rw [mem_apiKeyHashes]
    constructor
    · intro ⟨key', configured, same⟩
      exact injective same ▸ configured
    · exact fun configured => ⟨key, configured, rfl⟩
  unfold validateApiKey
  dsimp only
  by_cases closed : settings.apiKeyHashes sha256 = []
  · rw [if_pos closed]
    refine iff_of_false (fun ⟨_, impossible⟩ => by cases impossible) fun ⟨key, _, configured⟩ => ?_
    have member := (isConfigured key).mpr configured
    rw [closed] at member
    exact absurd member List.not_mem_nil
  · rw [if_neg closed]
    cases presented : extractPresentedKey authorization xApiKey with
    | none =>
        exact iff_of_false (fun ⟨_, impossible⟩ => (Option.some_ne_none _ impossible.symm))
          (fun ⟨_, impossible, _⟩ => (Option.some_ne_none _ impossible.symm))
    | some key =>
        cases key with
        | nil =>
            refine iff_of_false (fun ⟨_, impossible⟩ => by cases impossible) ?_
            intro ⟨key, same, configured⟩
            exact configured.1 (Option.some.inj same).symm
        | cons c rest =>
            simp only [Option.some.injEq, exists_eq_left', ← isConfigured,
              ← keyMatches_iff sha256 (c :: rest)]
            by_cases known : keyMatches sha256 (c :: rest) (settings.apiKeyHashes sha256) = true
            · rw [if_pos known]
              exact iff_of_true ⟨_, rfl⟩ known
            · rw [if_neg known]
              exact iff_of_false (fun ⟨_, impossible⟩ => by cases impossible) known

end Digests

/-! ## The gate -/

section Gate
variable {K : Type} [CommRing K] [LinearOrder K] [FloorRing K] (sha256 : List ℕ → Text)
  (settings : AccessSettings) (request : ClientRequest) (authorization xApiKey : Option Text)
  (now : K) (limiter : RateLimiter Text K)

theorem enforceRateLimit_cases :
    (∃ callerId, validateApiKey sha256 settings authorization xApiKey = some callerId ∧
        enforceRateLimit sha256 settings request authorization xApiKey now limiter =
          (.ok callerId, limiter)) ∨
      validateApiKey sha256 settings authorization xApiKey = none ∧
        ∃ refusal after, enforceRateLimit sha256 settings request authorization xApiKey now limiter =
            (.error refusal, after) ∧
          (refusal.error.statusCode = 401 ∨ refusal.error.statusCode = 429) := by
  unfold enforceRateLimit
  cases validateApiKey sha256 settings authorization xApiKey with
  | some callerId => exact Or.inl ⟨callerId, rfl, rfl⟩
  | none =>
      refine Or.inr ⟨rfl, ?_⟩
      dsimp only
      split
      · exact ⟨_, _, rfl, Or.inl rfl⟩
      · exact ⟨_, _, rfl, Or.inr rfl⟩

def Passes : Prop :=
  ∃ callerId, enforceRateLimit sha256 settings request authorization xApiKey now limiter =
    (.ok callerId, limiter)

variable {sha256}

theorem passes_iff (injective : Function.Injective (hashKey sha256)) :
    Passes sha256 settings request authorization xApiKey now limiter ↔
      ∃ key, extractPresentedKey authorization xApiKey = some key ∧
        ConfiguredKey settings.apiKeys key := by
  rw [← validateApiKey_iff injective]
  unfold Passes
  rcases enforceRateLimit_cases sha256 settings request authorization xApiKey now limiter with
    ⟨callerId, valid, passed⟩ | ⟨invalid, refusal, after, refused, -⟩
  · exact iff_of_true ⟨callerId, passed⟩ ⟨callerId, valid⟩
  · rw [refused, invalid]
    exact iff_of_false (fun ⟨_, impossible⟩ => by cases impossible)
      (fun ⟨_, impossible⟩ => by cases impossible)

/-- The gate accepts exactly the configured keys, in every state of the limiter, which a
request that passes leaves as it was; any other request ends in 401 or 429. -/
theorem gate_accepts_configured_keys (injective : Function.Injective (hashKey sha256)) :
    (∀ callerId after,
      enforceRateLimit sha256 settings request authorization xApiKey now limiter =
        (.ok callerId, after) →
      (∃ key, ConfiguredKey settings.apiKeys key ∧ CarriesKey authorization xApiKey key) ∧
        after = limiter) ∧
    (∀ key scheme, ConfiguredKey settings.apiKeys key → lower scheme = "bearer".toList →
      authorization = some (scheme ++ ' ' :: key) →
      Passes sha256 settings request authorization xApiKey now limiter) ∧
    (∀ key, ConfiguredKey settings.apiKeys key → xApiKey = some key →
      (∀ credential, ¬ BearerCredential authorization credential) →
      Passes sha256 settings request authorization xApiKey now limiter) ∧
    (∀ refusal after,
      enforceRateLimit sha256 settings request authorization xApiKey now limiter =
        (.error refusal, after) →
      refusal.error.statusCode = 401 ∨ refusal.error.statusCode = 429) := by
  have accepts := passes_iff settings request authorization xApiKey now limiter injective
  refine ⟨?_, ?_, ?_, ?_⟩
  · intro callerId after outcome
    rcases enforceRateLimit_cases sha256 settings request authorization xApiKey now limiter with
      ⟨_, -, passed⟩ | ⟨_, refusal, after', refused, -⟩
    · obtain ⟨key, presented, configured⟩ := accepts.mp ⟨_, passed⟩
      rw [passed] at outcome
      exact ⟨⟨key, configured, carriesKey_of_extractPresentedKey presented⟩,
        (congrArg Prod.snd outcome).symm⟩
    · rw [refused] at outcome
      cases outcome
  · intro key scheme configured bearer header
    have presented := extractPresentedKey_of_bearer ⟨configured.1, scheme, bearer, header⟩ xApiKey
    rw [configured.strip_eq] at presented
    exact accepts.mpr ⟨key, presented, configured⟩
  · intro key configured header notBearer
    have kept : xApiKey.filter (fun value => value ≠ []) = some key :=
      Option.filter_eq_some_iff.mpr ⟨header, decide_eq_true configured.1⟩
    have presented := extractPresentedKey_of_not_bearer notBearer xApiKey
    rw [kept, Option.map_some, configured.strip_eq] at presented
    exact accepts.mpr ⟨key, presented, configured⟩
  · intro refusal after outcome
    rcases enforceRateLimit_cases sha256 settings request authorization xApiKey now limiter with
      ⟨_, -, passed⟩ | ⟨_, refusal', after', refused, statuses⟩
    · rw [passed] at outcome
      cases outcome
    · rw [refused] at outcome
      cases outcome
      exact statuses

end Gate

def secretDigest (octets : List ℕ) : Text :=
  if octets = encodeUtf8 "secret".toList then
    "2bb80d537b1da3e38bd30361aa855686bde0eacd7162fef6a25fe97bf527a25b".toList
  else 'x' :: (decodeUtf8 octets).getD []

theorem encodeUtf8_injective : Function.Injective encodeUtf8 := by
  intro text text' same
  have decoded := decodeUtf8_encodeUtf8 text
  rw [same, decodeUtf8_encodeUtf8] at decoded
  exact (Option.some.inj decoded).symm

theorem secretDigest_injective : Function.Injective (hashKey secretDigest) := by
  have other : ∀ text : Text, text ≠ "secret".toList → hashKey secretDigest text = 'x' :: text := by
    intro text different
    rw [hashKey, secretDigest, if_neg (encodeUtf8_injective.ne different), decodeUtf8_encodeUtf8,
      Option.getD_some]
  have apart : ∀ text : Text, hashKey secretDigest "secret".toList ≠ 'x' :: text :=
    fun text same => absurd (List.cons.inj same).1 (by decide)
  intro text text' same
  by_cases secret : text = "secret".toList
  · by_cases secret' : text' = "secret".toList
    · rw [secret, secret']
    · rw [secret, other text' secret'] at same
      exact absurd same (apart text')
  · by_cases secret' : text' = "secret".toList
    · rw [secret', other text secret] at same
      exact absurd same.symm (apart text)
    · rw [other text secret, other text' secret'] at same
      exact (List.cons.inj same).2

theorem secret_passes :
    ConfiguredKey " secret ,".toList "secret".toList ∧
      Passes secretDigest ⟨⟨0⟩, " secret ,".toList, 60, 10, true⟩ ⟨none, none⟩
        (some "BEARER secret".toList) none (0 : ℚ) (RateLimiter.new 10 60) := by
  have configured : ConfiguredKey " secret ,".toList "secret".toList :=
    ⟨by decide, " secret ".toList, ⟨by decide, [], [','], by decide, Or.inl rfl, Or.inr ⟨[], rfl⟩⟩,
      by decide⟩
  exact ⟨configured, (gate_accepts_configured_keys ⟨⟨0⟩, " secret ,".toList, 60, 10, true⟩
    ⟨none, none⟩ (some "BEARER secret".toList) none (0 : ℚ) (RateLimiter.new 10 60)
    secretDigest_injective).2.1 "secret".toList "BEARER".toList configured (by decide) (by decide)⟩

end SupernoteTaskService
