import Kipfs.Kotlin.Multibase
import Kipfs.Kotlin.Posts

/-!
# The API functions

`dag.kt`, `basic.kt` and `multibase.kt`: functions on a shell that make a request, set its options,
and send or post it. The parameters of each function, with their defaults, are a structure, so that
an `ApiFunction` and its `Args` are any call of the API. `id` and the text `post` have a parameter
that they do not pass on.
-/

namespace Kipfs

open Foundation

/-- `Boolean.toString`. -/
def boolText (b : Bool) : KString := kstring (if b then "true" else "false")

/-- `String.lowercase`, on ASCII text. -/
def lowercase (s : KString) : KString := s.map fun u => if 65 ≤ u && u ≤ 90 then u + 32 else u

/-- The property `name` of an encoding. -/
def MultibaseEncoding.name : MultibaseEncoding → KString
  | Identity => kstring "Identity"
  | Base2 => kstring "Base2"
  | Base8 => kstring "Base8"
  | Base10 => kstring "Base10"
  | Base16 => kstring "Base16"
  | Base16Upper => kstring "Base16Upper"
  | Base32 => kstring "Base32"
  | Base32Upper => kstring "Base32Upper"
  | Base32pad => kstring "Base32pad"
  | Base32padUpper => kstring "Base32padUpper"
  | Base32hex => kstring "Base32hex"
  | Base32hexUpper => kstring "Base32hexUpper"
  | Base32hexPad => kstring "Base32hexPad"
  | Base32hexPadUpper => kstring "Base32hexPadUpper"
  | Base36 => kstring "Base36"
  | Base36Upper => kstring "Base36Upper"
  | Base58BTC => kstring "Base58BTC"
  | Base58Flickr => kstring "Base58Flickr"
  | Base64 => kstring "Base64"
  | Base64url => kstring "Base64url"
  | Base64pad => kstring "Base64pad"
  | Base64urlPad => kstring "Base64urlPad"
  | Base256Emoji => kstring "Base256Emoji"

/-- The parameter of `dagGet`. -/
structure DagGetArgs where
  arg : KString

/-- The parameters of `dagPut`. -/
structure DagPutArgs where
  data : Bytes
  pin : Bool := true
  hash : KString := kstring "sha2-256"
  inputCodec : KString := kstring "dag-json"
  storeCodec : KString := kstring "dag-cbor"
  allowBigBlock : Bool := false

/-- The parameter of `id`. -/
structure IdArgs where
  peerID : Option KString := none

/-- The parameters of `multibaseEncode`. -/
structure MultibaseEncodeArgs where
  data : KString
  encoding : MultibaseEncoding := .Base64url

/-- The parameters of `post`, for a text. -/
structure PostArgs where
  data : KString
  fileName : KString := []

/-- The address a shell was created with. -/
def Process.addressOf (p : Process) (shell : Nat) : KString :=
  match p.objects[shell]? with
  | some ⟨.shell ipfsAddress, _⟩ => ipfsAddress
  | _ => []

namespace KShell

variable (kipfs : KIPFSNative) (shell : Nat)

/-- `request`: the number of the new request. -/
def request (command : KString) (arg : Option KString) : Prog Nat := do
  let p ← get
  KNativeShell.request kipfs shell (p.addressOf shell) command arg
  pure p.objects.length

/-- `dagGet`. -/
def dagGet (args : DagGetArgs) : Prog Bytes := do
  let req ← request kipfs shell (kstring "dag/get") (some args.arg)
  KNativeRequest.send kipfs req

/-- `dagPut`. -/
def dagPut (args : DagPutArgs) : Prog Bytes := do
  let req ← request kipfs shell (kstring "dag/put") none
  KNativeRequest.option kipfs req (kstring "pin") (boolText args.pin)
  KNativeRequest.option kipfs req (kstring "hash") args.hash
  KNativeRequest.option kipfs req (kstring "input-codec") args.inputCodec
  KNativeRequest.option kipfs req (kstring "store-codec") args.storeCodec
  KNativeRequest.option kipfs req (kstring "allow-big-block") (boolText args.allowBigBlock)
  KNativeRequest.postData kipfs req args.data

/-- `id`. -/
def id (_args : IdArgs) : Prog Bytes := do
  let req ← request kipfs shell (kstring "id") none
  KNativeRequest.send kipfs req

/-- `multibaseEncode`. -/
def multibaseEncode (args : MultibaseEncodeArgs) : Prog Bytes := do
  let req ← request kipfs shell (kstring "multibase/encode") none
  KNativeRequest.option kipfs req (kstring "b") (lowercase args.encoding.name)
  KNativeRequest.postData kipfs req (encodeToByteArray args.data)

end KShell

/-- A function that ends in an HTTP request. -/
inductive ApiFunction where
  | dagGet
  | dagPut
  | id
  | multibaseEncode
  | post
  deriving DecidableEq, Repr

namespace ApiFunction

/-- The arguments of a function. -/
def Args : ApiFunction → Type
  | dagGet => DagGetArgs
  | dagPut => DagPutArgs
  | id => IdArgs
  | multibaseEncode => MultibaseEncodeArgs
  | post => PostArgs

/-- A call on the object with the given number: on a request for `post`, else on a shell. -/
def program (kipfs : KIPFSNative) (receiver : Nat) : (f : ApiFunction) → f.Args → Prog Bytes
  | dagGet, args => KShell.dagGet kipfs receiver args
  | dagPut, args => KShell.dagPut kipfs receiver args
  | id, args => KShell.id kipfs receiver args
  | multibaseEncode, args => KShell.multibaseEncode kipfs receiver args
  | post, args => KNativeRequest.postString kipfs receiver args.data args.fileName

/-- The object with the given number has the function. -/
def Receives (p : Process) (receiver : Nat) : ApiFunction → Prop
  | post => ∃ ref, p.objects[receiver]? = some ⟨.request, ref⟩
  | _ => ∃ ipfsAddress ref, p.objects[receiver]? = some ⟨.shell ipfsAddress, ref⟩

end ApiFunction

/-! ## Encodings by name -/

/-- The encoding with a given name in lower case. -/
def MultibaseEncoding.ofLowercase (s : KString) : Option MultibaseEncoding :=
  values.find? fun e => lowercase e.name = s

/-- Every encoding is found again by its name in lower case. -/
theorem MultibaseEncoding.ofLowercase_name (e : MultibaseEncoding) :
    ofLowercase (lowercase e.name) = some e := by
  cases e <;> decide

/-- No two names are the same in lower case. -/
theorem lowercase_name_injective {e e' : MultibaseEncoding}
    (h : lowercase e.name = lowercase e'.name) : e = e' := by
  have hfound := e.ofLowercase_name
  rw [h, e'.ofLowercase_name] at hfound
  exact (Option.some.inj hfound).symm

end Kipfs
