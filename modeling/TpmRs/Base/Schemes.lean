import TpmRs.Base.Algorithms

/-!
# Schemes and key parameters

The enums that select an algorithm together with its details, and the parameters of the
four kinds of keys. The selector of a scheme is the identifier of its algorithm.
-/

namespace TpmRs

/-- `TPMS_EMPTY`, which takes no bytes. -/
structure TpmsEmpty where
  deriving DecidableEq

def TpmsEmpty.ty : Ty TpmsEmpty :=
  .unitStruct ⟨fun _ => (), fun _ => ⟨⟩, fun _ => rfl, fun _ => rfl⟩

/-- The hash algorithm of a scheme. -/
structure TpmsSchemeHash where
  hashAlg : TpmiAlgHash
  deriving DecidableEq

namespace TpmsSchemeHash

def fields : TpmsSchemeHash ≃ TpmiAlgHash × Unit where
  toFun v := (v.hashAlg, ())
  invFun p := ⟨p.1⟩
  left_inv _ := rfl
  right_inv _ := rfl

def ty : Ty TpmsSchemeHash :=
  .namedStruct fields (.field TpmiAlgHash.ty .nil)

end TpmsSchemeHash

structure TpmsSchemeXor where
  hashAlg : TpmiAlgHash
  kdf : TpmiAlgKdf
  deriving DecidableEq

namespace TpmsSchemeXor

def fields : TpmsSchemeXor ≃ TpmiAlgHash × TpmiAlgKdf × Unit where
  toFun v := (v.hashAlg, v.kdf, ())
  invFun p := ⟨p.1, p.2.1⟩
  left_inv _ := rfl
  right_inv _ := rfl

def ty : Ty TpmsSchemeXor :=
  .namedStruct fields (.field TpmiAlgHash.ty (.field TpmiAlgKdf.ty .nil))

end TpmsSchemeXor

structure TpmsSchemeEcdaa where
  hashAlg : TpmiAlgHash
  count : U16
  deriving DecidableEq

namespace TpmsSchemeEcdaa

def fields : TpmsSchemeEcdaa ≃ TpmiAlgHash × U16 × Unit where
  toFun v := (v.hashAlg, v.count, ())
  invFun p := ⟨p.1, p.2.1⟩
  left_inv _ := rfl
  right_inv _ := rfl

def ty : Ty TpmsSchemeEcdaa :=
  .namedStruct fields (.field TpmiAlgHash.ty (.field (.prim .u16) .nil))

end TpmsSchemeEcdaa

abbrev TpmsSchemeHmac := TpmsSchemeHash
abbrev TpmsKeySchemeEcdh := TpmsSchemeHash
abbrev TpmsKeySchemeEcmqv := TpmsSchemeHash
abbrev TpmsSigSchemeRsassa := TpmsSchemeHash
abbrev TpmsSigSchemeRsapss := TpmsSchemeHash
abbrev TpmsSigSchemeEcdsa := TpmsSchemeHash
abbrev TpmsSigSchemeSm2 := TpmsSchemeHash
abbrev TpmsSigSchemeEcschnorr := TpmsSchemeHash
abbrev TpmsSigSchemeEcdaa := TpmsSchemeEcdaa
abbrev TpmsEncSchemeOaep := TpmsSchemeHash
abbrev TpmsEncSchemeRsaes := TpmsEmpty
abbrev TpmsSchemeMgf1 := TpmsSchemeHash
abbrev TpmsSchemeKdf1Sp800_56a := TpmsSchemeHash
abbrev TpmsSchemeKdf2 := TpmsSchemeHash
abbrev TpmsSchemeKdf1Sp800_108 := TpmsSchemeHash

inductive TpmtKeyedHashScheme where
  | hmac (f0 : TpmsSchemeHmac)
  | exclusiveOr (f0 : TpmsSchemeXor)
  | null (f0 : TpmsEmpty)
  deriving DecidableEq

namespace TpmtKeyedHashScheme

def variants : TpmtKeyedHashScheme ≃ (TpmsSchemeHmac × Unit) ⊕ (TpmsSchemeXor × Unit) ⊕ (TpmsEmpty ×
    Unit) ⊕ Empty where
  toFun
    | hmac f0 => .inl (f0, ())
    | exclusiveOr f0 => .inr (.inl (f0, ()))
    | null f0 => .inr (.inr (.inl (f0, ())))
  invFun
    | .inl (f0, ()) => hmac f0
    | .inr (.inl (f0, ())) => exclusiveOr f0
    | .inr (.inr (.inl (f0, ()))) => null f0
  left_inv v := by cases v <;> rfl
  right_inv v := by rcases v with v | v | v | v <;> first | rfl | cases v

def ty : Ty TpmtKeyedHashScheme :=
  .enum (p := .u16) variants
    (.cons TpmAlgId.hmac.val (by decide) (.cons TpmsSchemeHash.ty .nil)
    (.cons TpmAlgId.xor.val (by decide) (.cons TpmsSchemeXor.ty .nil)
    (.cons TpmAlgId.null.val (by decide) (.cons TpmsEmpty.ty .nil) .nil)))

end TpmtKeyedHashScheme

structure TpmsKeyedHashParms where
  scheme : TpmtKeyedHashScheme
  deriving DecidableEq

namespace TpmsKeyedHashParms

def fields : TpmsKeyedHashParms ≃ TpmtKeyedHashScheme × Unit where
  toFun v := (v.scheme, ())
  invFun p := ⟨p.1⟩
  left_inv _ := rfl
  right_inv _ := rfl

def ty : Ty TpmsKeyedHashParms :=
  .namedStruct fields (.field TpmtKeyedHashScheme.ty .nil)

end TpmsKeyedHashParms

/-- The symmetric algorithm of an object, its key size and its mode. -/
inductive TpmtSymDefObject where
  | aes (f0 : TpmiAesKeyBits) (f1 : TpmiAlgSymMode)
  | sm4 (f0 : TpmiSm4KeyBits) (f1 : TpmiAlgSymMode)
  | camellia (f0 : TpmiCamelliaKeyBits) (f1 : TpmiAlgSymMode)
  | exclusiveOr (f0 : TpmiAlgHash) (f1 : TpmsEmpty)
  | null (f0 : TpmsEmpty) (f1 : TpmsEmpty)
  deriving DecidableEq

namespace TpmtSymDefObject

def variants : TpmtSymDefObject ≃ (TpmiAesKeyBits × TpmiAlgSymMode × Unit) ⊕ (TpmiSm4KeyBits ×
    TpmiAlgSymMode × Unit) ⊕ (TpmiCamelliaKeyBits × TpmiAlgSymMode × Unit) ⊕ (TpmiAlgHash ×
    TpmsEmpty × Unit) ⊕ (TpmsEmpty × TpmsEmpty × Unit) ⊕ Empty where
  toFun
    | aes f0 f1 => .inl (f0, f1, ())
    | sm4 f0 f1 => .inr (.inl (f0, f1, ()))
    | camellia f0 f1 => .inr (.inr (.inl (f0, f1, ())))
    | exclusiveOr f0 f1 => .inr (.inr (.inr (.inl (f0, f1, ()))))
    | null f0 f1 => .inr (.inr (.inr (.inr (.inl (f0, f1, ())))))
  invFun
    | .inl (f0, f1, ()) => aes f0 f1
    | .inr (.inl (f0, f1, ())) => sm4 f0 f1
    | .inr (.inr (.inl (f0, f1, ()))) => camellia f0 f1
    | .inr (.inr (.inr (.inl (f0, f1, ())))) => exclusiveOr f0 f1
    | .inr (.inr (.inr (.inr (.inl (f0, f1, ()))))) => null f0 f1
  left_inv v := by cases v <;> rfl
  right_inv v := by rcases v with v | v | v | v | v | v <;> first | rfl | cases v

def ty : Ty TpmtSymDefObject :=
  .enum (p := .u16) variants
    (.cons TpmAlgId.aes.val (by decide) (.cons TpmiAesKeyBits.ty (.cons TpmiAlgSymMode.ty .nil))
    (.cons TpmAlgId.sm4.val (by decide) (.cons TpmiSm4KeyBits.ty (.cons TpmiAlgSymMode.ty .nil))
    (.cons TpmAlgId.camellia.val (by decide)
      (.cons TpmiCamelliaKeyBits.ty (.cons TpmiAlgSymMode.ty .nil))
    (.cons TpmAlgId.xor.val (by decide) (.cons TpmiAlgHash.ty (.cons TpmsEmpty.ty .nil))
    (.cons TpmAlgId.null.val (by decide) (.cons TpmsEmpty.ty (.cons TpmsEmpty.ty .nil)) .nil)))))

end TpmtSymDefObject

structure TpmsSymCipherParms where
  sym : TpmtSymDefObject
  deriving DecidableEq

namespace TpmsSymCipherParms

def fields : TpmsSymCipherParms ≃ TpmtSymDefObject × Unit where
  toFun v := (v.sym, ())
  invFun p := ⟨p.1⟩
  left_inv _ := rfl
  right_inv _ := rfl

def ty : Ty TpmsSymCipherParms :=
  .namedStruct fields (.field TpmtSymDefObject.ty .nil)

end TpmsSymCipherParms

/-- The scheme of an RSA key. The signature schemes of elliptic curves are variants, too. -/
inductive TpmtRsaScheme where
  | rsapss (f0 : TpmsSigSchemeRsapss)
  | rsassa (f0 : TpmsSigSchemeRsassa)
  | ecdsa (f0 : TpmsSigSchemeEcdsa)
  | ecdaa (f0 : TpmsSigSchemeEcdaa)
  | sm2 (f0 : TpmsSigSchemeSm2)
  | ecschnorr (f0 : TpmsSigSchemeEcschnorr)
  | rsaes (f0 : TpmsEncSchemeRsaes)
  | oaep (f0 : TpmsEncSchemeOaep)
  | null (f0 : TpmsEmpty)
  deriving DecidableEq

namespace TpmtRsaScheme

def variants : TpmtRsaScheme ≃ (TpmsSigSchemeRsapss × Unit) ⊕ (TpmsSigSchemeRsassa × Unit) ⊕
    (TpmsSigSchemeEcdsa × Unit) ⊕ (TpmsSigSchemeEcdaa × Unit) ⊕ (TpmsSigSchemeSm2 × Unit) ⊕
    (TpmsSigSchemeEcschnorr × Unit) ⊕ (TpmsEncSchemeRsaes × Unit) ⊕ (TpmsEncSchemeOaep × Unit) ⊕
    (TpmsEmpty × Unit) ⊕ Empty where
  toFun
    | rsapss f0 => .inl (f0, ())
    | rsassa f0 => .inr (.inl (f0, ()))
    | ecdsa f0 => .inr (.inr (.inl (f0, ())))
    | ecdaa f0 => .inr (.inr (.inr (.inl (f0, ()))))
    | sm2 f0 => .inr (.inr (.inr (.inr (.inl (f0, ())))))
    | ecschnorr f0 => .inr (.inr (.inr (.inr (.inr (.inl (f0, ()))))))
    | rsaes f0 => .inr (.inr (.inr (.inr (.inr (.inr (.inl (f0, ())))))))
    | oaep f0 => .inr (.inr (.inr (.inr (.inr (.inr (.inr (.inl (f0, ()))))))))
    | null f0 => .inr (.inr (.inr (.inr (.inr (.inr (.inr (.inr (.inl (f0, ())))))))))
  invFun
    | .inl (f0, ()) => rsapss f0
    | .inr (.inl (f0, ())) => rsassa f0
    | .inr (.inr (.inl (f0, ()))) => ecdsa f0
    | .inr (.inr (.inr (.inl (f0, ())))) => ecdaa f0
    | .inr (.inr (.inr (.inr (.inl (f0, ()))))) => sm2 f0
    | .inr (.inr (.inr (.inr (.inr (.inl (f0, ())))))) => ecschnorr f0
    | .inr (.inr (.inr (.inr (.inr (.inr (.inl (f0, ()))))))) => rsaes f0
    | .inr (.inr (.inr (.inr (.inr (.inr (.inr (.inl (f0, ())))))))) => oaep f0
    | .inr (.inr (.inr (.inr (.inr (.inr (.inr (.inr (.inl (f0, ()))))))))) => null f0
  left_inv v := by cases v <;> rfl
  right_inv v := by rcases v with v | v | v | v | v | v | v | v | v | v <;> first | rfl | cases v

def ty : Ty TpmtRsaScheme :=
  .enum (p := .u16) variants
    (.cons TpmAlgId.rsapss.val (by decide) (.cons TpmsSchemeHash.ty .nil)
    (.cons TpmAlgId.rsassa.val (by decide) (.cons TpmsSchemeHash.ty .nil)
    (.cons TpmAlgId.ecdsa.val (by decide) (.cons TpmsSchemeHash.ty .nil)
    (.cons TpmAlgId.ecdaa.val (by decide) (.cons TpmsSchemeEcdaa.ty .nil)
    (.cons TpmAlgId.sm2.val (by decide) (.cons TpmsSchemeHash.ty .nil)
    (.cons TpmAlgId.ecSchnorr.val (by decide) (.cons TpmsSchemeHash.ty .nil)
    (.cons TpmAlgId.rsaes.val (by decide) (.cons TpmsEmpty.ty .nil)
    (.cons TpmAlgId.oaep.val (by decide) (.cons TpmsSchemeHash.ty .nil)
    (.cons TpmAlgId.null.val (by decide) (.cons TpmsEmpty.ty .nil) .nil)))))))))

end TpmtRsaScheme

structure TpmsRsaParms where
  symmetric : TpmtSymDefObject
  scheme : TpmtRsaScheme
  keyBits : TpmiRsaKeyBits
  exponent : U32
  deriving DecidableEq

namespace TpmsRsaParms

def fields : TpmsRsaParms ≃ TpmtSymDefObject × TpmtRsaScheme × TpmiRsaKeyBits × U32 × Unit where
  toFun v := (v.symmetric, v.scheme, v.keyBits, v.exponent, ())
  invFun p := ⟨p.1, p.2.1, p.2.2.1, p.2.2.2.1⟩
  left_inv _ := rfl
  right_inv _ := rfl

def ty : Ty TpmsRsaParms :=
  .namedStruct fields (.field TpmtSymDefObject.ty (.field TpmtRsaScheme.ty (.field TpmiRsaKeyBits.ty
    (.field (.prim .u32) .nil))))

end TpmsRsaParms

inductive TpmtEccScheme where
  | rsapss (f0 : TpmsSigSchemeRsapss)
  | rsassa (f0 : TpmsSigSchemeRsassa)
  | ecdsa (f0 : TpmsSigSchemeEcdsa)
  | ecdaa (f0 : TpmsSigSchemeEcdaa)
  | sm2 (f0 : TpmsSigSchemeSm2)
  | ecschnorr (f0 : TpmsSigSchemeEcschnorr)
  | ecdh (f0 : TpmsKeySchemeEcdh)
  | ecmqv (f0 : TpmsKeySchemeEcmqv)
  | null (f0 : TpmsEmpty)
  deriving DecidableEq

namespace TpmtEccScheme

def variants : TpmtEccScheme ≃ (TpmsSigSchemeRsapss × Unit) ⊕ (TpmsSigSchemeRsassa × Unit) ⊕
    (TpmsSigSchemeEcdsa × Unit) ⊕ (TpmsSigSchemeEcdaa × Unit) ⊕ (TpmsSigSchemeSm2 × Unit) ⊕
    (TpmsSigSchemeEcschnorr × Unit) ⊕ (TpmsKeySchemeEcdh × Unit) ⊕ (TpmsKeySchemeEcmqv × Unit) ⊕
    (TpmsEmpty × Unit) ⊕ Empty where
  toFun
    | rsapss f0 => .inl (f0, ())
    | rsassa f0 => .inr (.inl (f0, ()))
    | ecdsa f0 => .inr (.inr (.inl (f0, ())))
    | ecdaa f0 => .inr (.inr (.inr (.inl (f0, ()))))
    | sm2 f0 => .inr (.inr (.inr (.inr (.inl (f0, ())))))
    | ecschnorr f0 => .inr (.inr (.inr (.inr (.inr (.inl (f0, ()))))))
    | ecdh f0 => .inr (.inr (.inr (.inr (.inr (.inr (.inl (f0, ())))))))
    | ecmqv f0 => .inr (.inr (.inr (.inr (.inr (.inr (.inr (.inl (f0, ()))))))))
    | null f0 => .inr (.inr (.inr (.inr (.inr (.inr (.inr (.inr (.inl (f0, ())))))))))
  invFun
    | .inl (f0, ()) => rsapss f0
    | .inr (.inl (f0, ())) => rsassa f0
    | .inr (.inr (.inl (f0, ()))) => ecdsa f0
    | .inr (.inr (.inr (.inl (f0, ())))) => ecdaa f0
    | .inr (.inr (.inr (.inr (.inl (f0, ()))))) => sm2 f0
    | .inr (.inr (.inr (.inr (.inr (.inl (f0, ())))))) => ecschnorr f0
    | .inr (.inr (.inr (.inr (.inr (.inr (.inl (f0, ()))))))) => ecdh f0
    | .inr (.inr (.inr (.inr (.inr (.inr (.inr (.inl (f0, ())))))))) => ecmqv f0
    | .inr (.inr (.inr (.inr (.inr (.inr (.inr (.inr (.inl (f0, ()))))))))) => null f0
  left_inv v := by cases v <;> rfl
  right_inv v := by rcases v with v | v | v | v | v | v | v | v | v | v <;> first | rfl | cases v

def ty : Ty TpmtEccScheme :=
  .enum (p := .u16) variants
    (.cons TpmAlgId.rsapss.val (by decide) (.cons TpmsSchemeHash.ty .nil)
    (.cons TpmAlgId.rsassa.val (by decide) (.cons TpmsSchemeHash.ty .nil)
    (.cons TpmAlgId.ecdsa.val (by decide) (.cons TpmsSchemeHash.ty .nil)
    (.cons TpmAlgId.ecdaa.val (by decide) (.cons TpmsSchemeEcdaa.ty .nil)
    (.cons TpmAlgId.sm2.val (by decide) (.cons TpmsSchemeHash.ty .nil)
    (.cons TpmAlgId.ecSchnorr.val (by decide) (.cons TpmsSchemeHash.ty .nil)
    (.cons TpmAlgId.ecdh.val (by decide) (.cons TpmsSchemeHash.ty .nil)
    (.cons TpmAlgId.ecmqv.val (by decide) (.cons TpmsSchemeHash.ty .nil)
    (.cons TpmAlgId.null.val (by decide) (.cons TpmsEmpty.ty .nil) .nil)))))))))

end TpmtEccScheme

inductive TpmtKdfScheme where
  | mgf1 (f0 : TpmsSchemeMgf1)
  | kdf1Sp800_56a (f0 : TpmsSchemeKdf1Sp800_56a)
  | kdf2 (f0 : TpmsSchemeKdf2)
  | kdf1Sp800_108 (f0 : TpmsSchemeKdf1Sp800_108)
  | null (f0 : TpmsEmpty)
  deriving DecidableEq

namespace TpmtKdfScheme

def variants : TpmtKdfScheme ≃ (TpmsSchemeMgf1 × Unit) ⊕ (TpmsSchemeKdf1Sp800_56a × Unit) ⊕
    (TpmsSchemeKdf2 × Unit) ⊕ (TpmsSchemeKdf1Sp800_108 × Unit) ⊕ (TpmsEmpty × Unit) ⊕ Empty where
  toFun
    | mgf1 f0 => .inl (f0, ())
    | kdf1Sp800_56a f0 => .inr (.inl (f0, ()))
    | kdf2 f0 => .inr (.inr (.inl (f0, ())))
    | kdf1Sp800_108 f0 => .inr (.inr (.inr (.inl (f0, ()))))
    | null f0 => .inr (.inr (.inr (.inr (.inl (f0, ())))))
  invFun
    | .inl (f0, ()) => mgf1 f0
    | .inr (.inl (f0, ())) => kdf1Sp800_56a f0
    | .inr (.inr (.inl (f0, ()))) => kdf2 f0
    | .inr (.inr (.inr (.inl (f0, ())))) => kdf1Sp800_108 f0
    | .inr (.inr (.inr (.inr (.inl (f0, ()))))) => null f0
  left_inv v := by cases v <;> rfl
  right_inv v := by rcases v with v | v | v | v | v | v <;> first | rfl | cases v

def ty : Ty TpmtKdfScheme :=
  .enum (p := .u16) variants
    (.cons TpmAlgId.mgf1.val (by decide) (.cons TpmsSchemeHash.ty .nil)
    (.cons TpmAlgId.kdf1Sp80056a.val (by decide) (.cons TpmsSchemeHash.ty .nil)
    (.cons TpmAlgId.kdf2.val (by decide) (.cons TpmsSchemeHash.ty .nil)
    (.cons TpmAlgId.kdf1Sp800108.val (by decide) (.cons TpmsSchemeHash.ty .nil)
    (.cons TpmAlgId.null.val (by decide) (.cons TpmsEmpty.ty .nil) .nil)))))

end TpmtKdfScheme

structure TpmsEccParms where
  symmetric : TpmtSymDefObject
  scheme : TpmtEccScheme
  curveId : TpmiEccCurve
  kdf : TpmtKdfScheme
  deriving DecidableEq

namespace TpmsEccParms

def fields : TpmsEccParms ≃ TpmtSymDefObject × TpmtEccScheme × TpmiEccCurve × TpmtKdfScheme × Unit
    where
  toFun v := (v.symmetric, v.scheme, v.curveId, v.kdf, ())
  invFun p := ⟨p.1, p.2.1, p.2.2.1, p.2.2.2.1⟩
  left_inv _ := rfl
  right_inv _ := rfl

def ty : Ty TpmsEccParms :=
  .namedStruct fields (.field TpmtSymDefObject.ty (.field TpmtEccScheme.ty (.field TpmiEccCurve.ty
    (.field TpmtKdfScheme.ty .nil))))

end TpmsEccParms

end TpmRs
