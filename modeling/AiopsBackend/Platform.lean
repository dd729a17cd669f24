import Mathlib
import AiopsBackend.Config.Settings

/-!
# The platform

What the services run on and cannot be read under `backend/`: PyJWT, SHA-256, passlib's argon2 and
Python's Unicode `str.lower` and `str.strip`. They are parameters (`Libraries`), and the laws
the session protocol rests on are fields: a token signed with a key verifies under that key only,
to the claims it was made from (JWT signing taken as unforgeable), it is not the empty string, and
SHA-256 has no collisions.
Nothing is assumed of strings that were never signed: they may verify or not, to any claims.
`Libraries.reference` is a concrete choice that meets the laws.
-/

namespace AiopsBackend

/-- The registered and private claims of a decoded payload; `payload.get(name)` is the field. -/
structure Claims where
  sub : Option String
  role : Option String
  type : Option String
  jti : Option String
  iss : Option String
  aud : Option String
  exp : Option Int
  iat : Option Int
  deriving DecidableEq, Repr

structure Libraries where
  /-- `jwt.encode(payload, key)`, the times already whole seconds. -/
  jwtEncode : Claims → String → String
  /-- The signature check of `jwt.decode`: the claims of a token that verifies under the key. -/
  jwtVerify : String → String → Option Claims
  jwtVerify_encode : ∀ (c : Claims) (key key' : String),
    jwtVerify (jwtEncode c key) key' = if key' = key then some c else none
  /-- A JWT is three segments joined by dots. -/
  jwtEncode_ne_empty : ∀ (c : Claims) (key : String), jwtEncode c key ≠ ""
  /-- `hashlib.sha256(s.encode("utf-8")).hexdigest()`. -/
  sha256 : String → String
  sha256_injective : ∀ {s t : String}, sha256 s = sha256 t → s = t
  /-- `pwd_context.hash`, with the salt it draws. It refuses passwords of more than 4096 characters;
  the schemas admit 128. -/
  argon2Hash : String → String → String
  /-- `pwd_context.verify`. -/
  argon2Verify : String → String → Except PasslibError Bool
  lower : String → String
  strip : String → String

structure Platform extends Settings, Libraries

/-! ## A platform that meets the laws -/

namespace Reference

/-- A string as an escaped, terminated character sequence. -/
def encodeString (s : List Char) : List Char := s.flatMap (fun c => ['.', c]) ++ ['|']

/-- The strings of a concatenation of `encodeString`s; `acc` holds the current one reversed. -/
def decodeStrings : List Char → List Char → Option (List (List Char))
  | [], [] => some []
  | [], _ :: _ => none
  | '|' :: cs, acc => (decodeStrings cs []).map (acc.reverse :: ·)
  | '.' :: c :: cs, acc => decodeStrings cs (c :: acc)
  | _ :: _, _ => none

theorem decodeStrings_append (s rest acc : List Char) :
    decodeStrings (encodeString s ++ rest) acc =
      (decodeStrings rest []).map ((acc.reverse ++ s) :: ·) := by
  induction s generalizing acc with
  | nil => simp [encodeString, decodeStrings]
  | cons c s ih =>
    have := ih (c :: acc)
    simp only [encodeString, List.flatMap_cons, List.append_assoc, List.cons_append,
      List.nil_append, decodeStrings] at this ⊢
    rw [this]
    simp

theorem decodeStrings_flatMap (l : List (List Char)) :
    decodeStrings (l.flatMap encodeString) [] = some l := by
  induction l with
  | nil => rfl
  | cons s l ih =>
    rw [List.flatMap_cons, decodeStrings_append, ih]
    rfl

def optionString : Option String → List Char
  | none => []
  | some s => '=' :: s.toList

def readOption : List Char → Option String
  | [] => none
  | _ :: cs => some (String.ofList cs)

theorem readOption_optionString (o : Option String) : readOption (optionString o) = o := by
  cases o with
  | none => rfl
  | some s => simp [optionString, readOption]

def optionInt (o : Option Int) : List Char := optionString (o.map Int.repr)

def readInt (cs : List Char) : Option Int := (readOption cs).bind String.toInt?

theorem readInt_optionInt (o : Option Int) : readInt (optionInt o) = o := by
  unfold readInt optionInt
  rw [readOption_optionString]
  cases o with
  | none => rfl
  | some n => simp

def jwtEncode (c : Claims) (key : String) : String :=
  String.ofList ([key.toList, optionString c.sub, optionString c.role, optionString c.type,
    optionString c.jti, optionString c.iss, optionString c.aud, optionInt c.exp,
    optionInt c.iat].flatMap encodeString)

def jwtVerify (token key : String) : Option Claims :=
  match decodeStrings token.toList [] with
  | some [k, sub, role, type, jti, iss, aud, exp, iat] =>
    if key = String.ofList k then
      some ⟨readOption sub, readOption role, readOption type, readOption jti, readOption iss,
        readOption aud, readInt exp, readInt iat⟩
    else none
  | _ => none

theorem jwtVerify_encode (c : Claims) (key key' : String) :
    jwtVerify (jwtEncode c key) key' = if key' = key then some c else none := by
  unfold jwtVerify jwtEncode
  rw [String.toList_ofList, decodeStrings_flatMap]
  simp only [readOption_optionString, readInt_optionInt, String.ofList_toList]

theorem jwtEncode_ne_empty (c : Claims) (key : String) : jwtEncode c key ≠ "" := by
  intro h
  have hlist := congrArg String.toList h
  unfold jwtEncode at hlist
  rw [String.toList_ofList] at hlist
  simp [encodeString] at hlist

end Reference

/-- Libraries that meet the laws: a self-delimiting encoding that carries its key, the identity
for SHA-256, a prefix for argon2 and ASCII case folding. -/
def Libraries.reference : Libraries where
  jwtEncode := Reference.jwtEncode
  jwtVerify := Reference.jwtVerify
  jwtVerify_encode := Reference.jwtVerify_encode
  jwtEncode_ne_empty := Reference.jwtEncode_ne_empty
  sha256 := id
  sha256_injective := id
  argon2Hash _ password := "$argon2id$" ++ password
  argon2Verify password hash :=
    if "$argon2id$".toList.isPrefixOf hash.toList then .ok (hash = "$argon2id$" ++ password)
    else .error .unknownHash
  lower s := String.ofList (s.toList.map Char.toLower)
  strip s := String.ofList
    (((s.toList.dropWhile Char.isWhitespace).reverse.dropWhile Char.isWhitespace).reverse)

theorem Libraries.reference_argon2Verify (salt password password' : String) :
    reference.argon2Verify password' (reference.argon2Hash salt password) =
      .ok (decide (password' = password)) := by
  change (if "$argon2id$".toList.isPrefixOf ("$argon2id$" ++ password).toList then
    Except.ok (decide ("$argon2id$" ++ password = "$argon2id$" ++ password')) else _) = _
  rw [String.toList_append, if_pos (List.isPrefixOf_iff_prefix.2 (List.prefix_append _ _))]
  refine congrArg Except.ok (decide_eq_decide.2 ?_)
  rw [String.append_right_inj, eq_comm]

/-- The default settings over the reference libraries. -/
def Platform.reference : Platform where
  toSettings := {}
  toLibraries := Libraries.reference

end AiopsBackend
