import RoomWatchdog.Auth.ApiToken

namespace RoomWatchdog.Auth

/-- API_TOKEN of secrets.h, as long as the build demands. -/
structure Token where
  bytes : List UInt8
  long_enough : 16 ≤ bytes.length

/-- The two headers of a request that are looked at, each present or absent. -/
structure Request where
  authorization : Option (List UInt8)
  xApiKey : Option (List UInt8)

def apiTokenAccepted (apiToken : Token) (headerValue : List UInt8) : Option Bool := do
  let skipped ← ApiToken.bearerPrefixLength (cStr headerValue)
  let supplied := if skipped > 0 then headerValue.drop skipped else headerValue
  ApiToken.matches (cStr supplied) supplied.length (cStr apiToken.bytes) apiToken.bytes.length

/-- `header != nullptr && apiTokenAccepted(header->value())` -/
def headerAccepted (apiToken : Token) : Option (List UInt8) → Option Bool
  | none => some false
  | some value => apiTokenAccepted apiToken value

/-- The check of the server on port 80, whose getHeader finds no absent header. -/
def authorized (apiToken : Token) (request : Request) : Option Bool := do
  if ← headerAccepted apiToken request.authorization then some true
  else headerAccepted apiToken request.xApiKey

/-- WebServer::header, which reads an absent header as empty. -/
def header (value : Option (List UInt8)) : List UInt8 := value.getD []

/-- The check of the server on port 81. -/
def rejectUnauthorized (apiToken : Token) (request : Request) : Option Bool := do
  if ← apiTokenAccepted apiToken (header request.authorization) then some false
  else if ← apiTokenAccepted apiToken (header request.xApiKey) then some false
  else some true

/-- The credential a header value presents. -/
def presented (value : List UInt8) : List UInt8 :=
  if ApiToken.bearer <+: value then value.drop ApiToken.bearer.length else value

theorem Token.ne_nil (t : Token) : t.bytes ≠ [] := by
  intro h
  have hlen := t.long_enough
  rw [h] at hlen
  exact absurd hlen (by decide)

theorem apiTokenAccepted_eq (t : Token) (value : List UInt8) :
    apiTokenAccepted t value = some (decide (presented value = t.bytes)) := by
  have hsupplied : (if (if ApiToken.bearer <+: value then ApiToken.bearer.length else 0) > 0 then
      value.drop (if ApiToken.bearer <+: value then ApiToken.bearer.length else 0) else value) =
      presented value := by
    simp only [presented]
    by_cases h : ApiToken.bearer <+: value
    · rw [if_pos h, if_pos h, if_pos (by decide)]
    · rw [if_neg h, if_neg h, if_neg (Nat.lt_irrefl 0)]
  rw [apiTokenAccepted, ApiToken.bearerPrefixLength_cStr, Option.bind_eq_bind, Option.bind_some,
    hsupplied, ApiToken.matches_cStr, Option.some_inj, decide_eq_decide]
  exact and_iff_right t.ne_nil

theorem presented_nil : presented [] = [] := by decide

/-- What presents the token is the token, alone or behind the prefix. -/
theorem eq_of_presented {t : Token} {value : List UInt8} (h : presented value = t.bytes) :
    value = t.bytes ∨ value = ApiToken.bearer ++ t.bytes := by
  simp only [presented] at h
  split_ifs at h with hpre
  · right
    rw [← h]
    exact List.prefix_append_drop hpre
  · left
    exact h

theorem headerAccepted_eq (t : Token) (value : Option (List UInt8)) :
    headerAccepted t value = some (decide (∃ v, value = some v ∧ presented v = t.bytes)) := by
  cases value with
  | none => simp [headerAccepted]
  | some v => simp [headerAccepted, apiTokenAccepted_eq]

/-- An absent header is refused on port 81 too: it presents the empty credential. -/
theorem header_accepted_eq (t : Token) (value : Option (List UInt8)) :
    apiTokenAccepted t (header value) = headerAccepted t value := by
  cases value with
  | none =>
    have hempty : presented [] ≠ t.bytes := by
      rw [presented_nil]
      exact t.ne_nil.symm
    simp [header, headerAccepted, apiTokenAccepted_eq, hempty]
  | some v => rfl

/-- One of the two headers presents the token. -/
def Presents (t : Token) (request : Request) : Prop :=
  ∃ value, (request.authorization = some value ∨ request.xApiKey = some value) ∧
    presented value = t.bytes

theorem presents_iff (t : Token) (request : Request) : Presents t request ↔
    (∃ v, request.authorization = some v ∧ presented v = t.bytes) ∨
      ∃ v, request.xApiKey = some v ∧ presented v = t.bytes := by
  constructor
  · rintro ⟨v, hauth | hkey, hv⟩
    · exact Or.inl ⟨v, hauth, hv⟩
    · exact Or.inr ⟨v, hkey, hv⟩
  · rintro (⟨v, hauth, hv⟩ | ⟨v, hkey, hv⟩)
    · exact ⟨v, Or.inl hauth, hv⟩
    · exact ⟨v, Or.inr hkey, hv⟩

/-- Both servers ask whether a header presents the token, and nothing else. -/
theorem decisions_eq (t : Token) (request : Request) :
    ∃ passed, authorized t request = some passed ∧ rejectUnauthorized t request = some (!passed) ∧
      (passed = true ↔ Presents t request) := by
  simp only [authorized, rejectUnauthorized]
  rw [header_accepted_eq, header_accepted_eq, headerAccepted_eq, headerAccepted_eq, presents_iff]
  by_cases hauth : ∃ v, request.authorization = some v ∧ presented v = t.bytes
  · exact ⟨true, by simp [hauth], by simp [hauth], by simp [hauth]⟩
  · by_cases hkey : ∃ v, request.xApiKey = some v ∧ presented v = t.bytes
    · exact ⟨true, by simp [hauth, hkey], by simp [hauth, hkey], by simp [hkey]⟩
    · exact ⟨false, by simp [hauth, hkey], by simp [hauth, hkey], by simp [hauth, hkey]⟩

/-- Both servers take the same decision, and let a request through only if one of its two
headers is the token or "Bearer " and the token, byte for byte. The comparison behind it
is exact on all arrays and lengths. -/
theorem authentication_sound (t : Token) (request : Request) :
    (∀ supplied suppliedLength expected expectedLength,
      suppliedLength ≤ supplied.length → expectedLength ≤ expected.length →
      ApiToken.matches supplied suppliedLength expected expectedLength =
        some (decide (0 < expectedLength ∧ suppliedLength = expectedLength ∧
          supplied.take expectedLength = expected.take expectedLength))) ∧
    ∃ passed, authorized t request = some passed ∧
      rejectUnauthorized t request = some (!passed) ∧
      (passed = true → ∃ value,
        (request.authorization = some value ∨ request.xApiKey = some value) ∧
        (value = t.bytes ∨ value = ApiToken.bearer ++ t.bytes)) := by
  refine ⟨fun _ _ _ _ => ApiToken.matches_eq, ?_⟩
  obtain ⟨passed, hauthorized, hrejected, hpassed⟩ := decisions_eq t request
  refine ⟨passed, hauthorized, hrejected, ?_⟩
  intro h
  obtain ⟨v, hv, hpresented⟩ := hpassed.mp h
  exact ⟨v, hv, eq_of_presented hpresented⟩

theorem presented_bearer (value : List UInt8) : presented (ApiToken.bearer ++ value) = value := by
  rw [presented, if_pos (List.prefix_append _ _), List.drop_left]

/-- A token is its own credential unless it begins like a header that carries one. -/
theorem presented_self_iff (t : Token) :
    presented t.bytes = t.bytes ↔ ¬ ApiToken.bearer <+: t.bytes := by
  constructor
  · intro h hpre
    rw [presented, if_pos hpre] at h
    have hlen := congrArg List.length h
    have hlong := t.long_enough
    have hseven : ApiToken.bearer.length = 7 := rfl
    rw [List.length_drop] at hlen
    omega
  · intro hpre
    exact if_neg hpre

theorem accepted_iff (t : Token) (request : Request) :
    authorized t request = some true ∧ rejectUnauthorized t request = some false ↔
      Presents t request := by
  obtain ⟨passed, hauthorized, hrejected, hpassed⟩ := decisions_eq t request
  rw [hauthorized, hrejected, ← hpassed]
  cases passed <;> simp

/-- The right token is in place, in one of the two forms. -/
def Right (t : Token) (request : Request) : Prop :=
  request.xApiKey = some t.bytes ∨ request.authorization = some (ApiToken.bearer ++ t.bytes)

/-- A token that begins like a header that carries one is presented by such a header only. -/
theorem presents_right_iff {t : Token} {request : Request} (h : Right t request) :
    Presents t request ↔ ¬ ApiToken.bearer <+: t.bytes ∨
      request.authorization = some (ApiToken.bearer ++ t.bytes) := by
  constructor
  · rintro ⟨v, hplace, hv⟩
    by_contra hneither
    obtain ⟨hself, hauth⟩ := not_or.mp hneither
    have hkey : request.xApiKey = some t.bytes := h.resolve_right hauth
    have hstrips : presented t.bytes ≠ t.bytes := (presented_self_iff t).not.mpr hself
    rcases eq_of_presented hv with rfl | rfl
    · exact hstrips hv
    · rcases hplace with hfirst | hsecond
      · exact hauth hfirst
      · have hlen := congrArg List.length (Option.some.inj (hkey.symm.trans hsecond))
        rw [List.length_append] at hlen
        have hseven : ApiToken.bearer.length = 7 := rfl
        omega
  · rintro (hself | hauth)
    · rcases h with hkey | hauth
      · exact ⟨_, Or.inr hkey, (presented_self_iff t).mpr hself⟩
      · exact ⟨_, Or.inl hauth, presented_bearer t.bytes⟩
    · exact ⟨_, Or.inl hauth, presented_bearer t.bytes⟩

/-- A request with the right token in place is accepted by both servers exactly when the token
does not itself begin with "Bearer ", or Authorization is "Bearer " and the token. So every such
request is accepted exactly when the token does not begin with it. -/
theorem authentication_complete_iff (t : Token) :
    (∀ request : Request, Right t request →
      (authorized t request = some true ∧ rejectUnauthorized t request = some false ↔
        ¬ ApiToken.bearer <+: t.bytes ∨
          request.authorization = some (ApiToken.bearer ++ t.bytes))) ∧
    ((∀ request : Request, Right t request →
      authorized t request = some true ∧ rejectUnauthorized t request = some false) ↔
    ¬ ApiToken.bearer <+: t.bytes) := by
  have heach : ∀ request : Request, Right t request →
      (authorized t request = some true ∧ rejectUnauthorized t request = some false ↔
        ¬ ApiToken.bearer <+: t.bytes ∨
          request.authorization = some (ApiToken.bearer ++ t.bytes)) := by
    intro request hright
    rw [accepted_iff, presents_right_iff hright]
  refine ⟨heach, ?_, ?_⟩
  · intro hcomplete
    have hkey : Right t ⟨none, some t.bytes⟩ := Or.inl rfl
    rcases (heach _ hkey).mp (hcomplete _ hkey) with hself | hauth
    · exact hself
    · cases hauth
  · intro hself request hright
    exact (heach request hright).mpr (Or.inl hself)

/-- The token "Bearer 0123456789". -/
def bearerToken : Token where
  bytes := ApiToken.bearer ++ [48, 49, 50, 51, 52, 53, 54, 55, 56, 57]
  long_enough := by decide

/-- It is stripped of its own first seven characters and refused by both servers. -/
theorem bearer_token_refused :
    authorized bearerToken ⟨none, some bearerToken.bytes⟩ = some false ∧
    rejectUnauthorized bearerToken ⟨none, some bearerToken.bytes⟩ = some true := by
  decide

end RoomWatchdog.Auth
