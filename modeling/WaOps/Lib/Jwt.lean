import Mathlib.Logic.Equiv.List

namespace Lib.Jwt

structure SignOptions where
  expiresIn : Int
  algorithm : String
  issuer : String
  audience : String

structure VerifyOptions where
  algorithms : List String
  issuer : String
  audience : String

/-- What a token says, with the registered claims that signing adds. -/
structure Payload (γ : Type) where
  claims : γ
  iat : Int
  exp : Int
  iss : String
  aud : String
  deriving DecidableEq, Repr

variable {γ : Type}

def payload (claims : γ) (o : SignOptions) (now : Int) : Payload γ :=
  { claims, iat := now, exp := now + o.expiresIn, iss := o.issuer, aud := o.audience }

/-- A service with its secret. Times are in seconds. -/
structure JwtService (γ : Type) where
  signAsync : γ → SignOptions → Int → String
  /-- None where it throws. -/
  verifyAsync : String → VerifyOptions → Int → Option (Payload γ)

/-- A payload as it was signed, if the options ask for it and it has not expired. -/
def VerifyOptions.Accepts (opts : VerifyOptions) (now : Int) (algorithm : String)
    (p : Payload γ) : Prop :=
  algorithm ∈ opts.algorithms ∧ p.iss = opts.issuer ∧ p.aud = opts.audience ∧ now < p.exp

instance (opts : VerifyOptions) (now : Int) (algorithm : String) (p : Payload γ) :
    Decidable (opts.Accepts now algorithm p) :=
  inferInstanceAs (Decidable (_ ∧ _))

structure JwtService.Lawful (j : JwtService γ) : Prop where
  verify_iff : ∀ token opts now p, j.verifyAsync token opts now = some p ↔
    ∃ claims o t, token = j.signAsync claims o t ∧ p = payload claims o t ∧
      opts.Accepts now o.algorithm p

section
variable {j : JwtService γ} {opts : VerifyOptions} {o o' : SignOptions} {c c' : γ} {t t' now : Int}

theorem verify_sign (hj : j.Lawful) (h : opts.Accepts now o.algorithm (payload c o t)) :
    j.verifyAsync (j.signAsync c o t) opts now = some (payload c o t) :=
  (hj.verify_iff _ _ _ _).mpr ⟨c, o, t, rfl, rfl, h⟩

/-- A token says one thing only. -/
theorem payload_unique (hj : j.Lawful) (hiss : o'.issuer = o.issuer) (haud : o'.audience = o.audience)
    (h : j.signAsync c o t = j.signAsync c' o' t') : payload c o t = payload c' o' t' := by
  let opts : VerifyOptions :=
    { algorithms := [o.algorithm, o'.algorithm], issuer := o.issuer, audience := o.audience }
  -- a moment at which neither has expired
  let now := min (t + o.expiresIn) (t' + o'.expiresIn) - 1
  have hfirst : opts.Accepts now o.algorithm (payload c o t) := by
    refine ⟨List.mem_cons_self, rfl, rfl, ?_⟩
    simp only [payload, now]
    omega
  have hsecond : opts.Accepts now o'.algorithm (payload c' o' t') := by
    refine ⟨by simp [opts], hiss, haud, ?_⟩
    simp only [payload, now]
    omega
  have hp := verify_sign hj hfirst
  rw [h, verify_sign hj hsecond] at hp
  exact (Option.some.inj hp).symm

end

/-- Every payload is what some call of sign makes. -/
theorem payload_surjective (p : Payload γ) (algorithm : String) :
    ∃ o t, payload p.claims o t = p ∧ o.algorithm = algorithm := by
  refine ⟨⟨p.exp - p.iat, algorithm, p.iss, p.aud⟩, p.iat, ?_, rfl⟩
  have hexp : p.iat + (p.exp - p.iat) = p.exp := by omega
  simp only [payload, hexp]

instance encodableChar : Encodable Char :=
  Encodable.ofLeftInverse Char.toNat Char.ofNat Char.ofNat_toNat

instance encodableString : Encodable String :=
  Encodable.ofLeftInverse String.toList String.ofList (fun _ => String.ofList_toList)

instance encodablePayload [Encodable γ] : Encodable (Payload γ) :=
  Encodable.ofLeftInverse (fun p => (p.claims, p.iat, p.exp, p.iss, p.aud))
    (fun q => ⟨q.1, q.2.1, q.2.2.1, q.2.2.2.1, q.2.2.2.2⟩) (fun _ => rfl)

section
variable [Encodable γ]

def unary (p : Payload γ) (algorithm : String) : String :=
  String.ofList ('.' :: List.replicate (Encodable.encode (p, algorithm)) 'x')

def unaryService : JwtService γ where
  signAsync claims o now := unary (payload claims o now) o.algorithm
  verifyAsync token opts now :=
    match Encodable.decode (α := Payload γ × String) (token.toList.length - 1) with
    | some (p, algorithm) =>
      if token = unary p algorithm ∧ opts.Accepts now algorithm p then some p else none
    | none => none

theorem unary_length (p : Payload γ) (algorithm : String) :
    (unary p algorithm).toList.length - 1 = Encodable.encode (p, algorithm) := by
  simp [unary]

theorem unary_ne_empty (p : Payload γ) (algorithm : String) : unary p algorithm ≠ "" := by
  intro h
  have hlist := congrArg String.toList h
  simp [unary] at hlist

theorem unaryService_lawful : (unaryService (γ := γ)).Lawful := by
  constructor
  intro token opts now p
  constructor
  · intro h
    simp only [unaryService] at h
    split at h
    · rename_i q algorithm _
      split at h
      · rename_i hq
        cases h
        obtain ⟨o, t, hp, rfl⟩ := payload_surjective p algorithm
        refine ⟨p.claims, o, t, ?_, hp.symm, hq.2⟩
        change token = unary (payload p.claims o t) o.algorithm
        rw [hq.1, hp]
      · contradiction
    · contradiction
  · rintro ⟨claims, o, t, rfl, rfl, h⟩
    simp only [unaryService, unary_length, Encodable.encodek]
    exact if_pos ⟨trivial, h⟩

end

end Lib.Jwt
