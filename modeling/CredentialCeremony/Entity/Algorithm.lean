import CredentialCeremony.Schema.Basic

set_option autoImplicit false

/-!
# Signature algorithms

An algorithm is a whole number of 64 bits as the relying party wrote it. Some numbers are
registered and have a name; the others are kept as they are.
-/

namespace CredentialCeremony

/-- The number of an algorithm, registered or not. -/
abbrev AlgorithmId := Int64

namespace AlgorithmId

/-- The registered numbers with their names. -/
def registry : List (AlgorithmId × String) := [
  (-65535, "RS1"), (-260, "WalnutDSA"), (-259, "RS512"), (-258, "RS384"), (-257, "RS256"),
  (-47, "ES256K"), (-46, "HSS_LMS"), (-45, "SHAKE256"), (-44, "SHA_512"), (-43, "SHA_384"),
  (-42, "RSAES_OAEP_SHA_512"), (-41, "RSAES_OAEP_SHA_256"), (-40, "RSAES_OAEP_RFC_8017_default"),
  (-39, "PS512"), (-38, "PS384"), (-37, "PS256"), (-36, "ES512"), (-35, "ES384"),
  (-34, "ECDH_SS_A256KW"), (-33, "ECDH_SS_A192KW"), (-32, "ECDH_SS_A128KW"),
  (-31, "ECDH_ES_A256KW"), (-30, "ECDH_ES_A192KW"), (-29, "ECDH_ES_A128KW"),
  (-28, "ECDH_SS_HKDF_512"), (-27, "ECDH_SS_HKDF_256"), (-26, "ECDH_ES_HKDF_512"),
  (-25, "ECDH_ES_HKDF_256"), (-18, "SHAKE128"), (-17, "SHA_512_256"), (-16, "SHA_256"),
  (-15, "SHA_256_64"), (-14, "SHA_1"), (-13, "Direct_HKDF_AES_256"), (-12, "Direct_HKDF_AES_128"),
  (-11, "Direct_HKDF_SHA_512"), (-10, "Direct_HKDF_SHA_256"), (-8, "EdDSA"), (-7, "ES256"),
  (-6, "Direct"), (-5, "A256KW"), (-4, "A192KW"), (-3, "A128KW"), (0, "Reserved"), (1, "A128GCM"),
  (2, "A192GCM"), (3, "A256GCM"), (4, "HMAC_256_64"), (5, "HMAC_256_256"), (6, "HMAC_384_384"),
  (7, "HMAC_512_512"), (10, "AES_CCM_16_64_128"), (11, "AES_CCM_16_64_256"),
  (12, "AES_CCM_64_64_128"), (13, "AES_CCM_64_64_256"), (14, "AES_MAC_128_64"),
  (15, "AES_MAC_256_64"), (24, "ChaCha20Poly1305"), (25, "AES_MAC_128_128"),
  (26, "AES_MAC_256_128"), (30, "AES_CCM_16_128_128"), (31, "AES_CCM_16_128_256"),
  (32, "AES_CCM_64_128_128"), (33, "AES_CCM_64_128_256"), (34, "IV_GENERATION")]

/-- The entry of a number in the registry. -/
def registered? (id : AlgorithmId) : Option (AlgorithmId × String) :=
  registry.find? fun entry => entry.1 == id

/-- Every number of the registry is found under its own entry. -/
theorem registered?_of_mem : ∀ entry ∈ registry, registered? entry.1 = some entry := by decide

/-- Signatures over the curve P-256 with SHA-256. -/
def es256 : AlgorithmId := -7

/-- RSA signatures with SHA-256. -/
def rs256 : AlgorithmId := -257

end AlgorithmId
end CredentialCeremony
