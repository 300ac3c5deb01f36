import KernelCatalog.Kernel.Param
import KernelCatalog.Text.Split

/-!
# Kernel names with signatures

The code of one overload of a kernel is called `<kernel>__<signature>`. The signature is `v` for no
parameters and otherwise the tokens of the parameters with `_` between them: a scalar is written by
its short name, and a pointer by `p` (global, mutable), `c` (global, constant) or `l` (local,
mutable) in front of its element. The separator is the last `__` of the name, so the kernel's own
name may hold one. `Param.token?` and `signature?` write what `parse` reads; a constant pointer to
local memory has no token.
-/

namespace KernelCatalog

/-- Why a name does not split into a kernel and a signature. -/
inductive SignatureError where
  | missingSeparator
  | emptyKernel
  | emptySignature
  | unknownToken (token : String)
  deriving DecidableEq, Repr

def SignatureError.message : SignatureError → String
  | .missingSeparator => "missing '__' signature separator"
  | .emptyKernel => "empty kernel name"
  | .emptySignature => "empty signature (use 'v' for no parameters)"
  | .unknownToken token => "unknown parameter token '" ++ token ++ "'"

namespace Param

/-- The parameter of a token. -/
def ofToken? (token : List Char) : Option Param :=
  match Scalar.ofName? (String.ofList token) with
  | some type => some (.scalar type)
  | none =>
    match token with
    | 'p' :: elem => (Scalar.ofName? (String.ofList elem)).map (.pointer .global · true)
    | 'c' :: elem => (Scalar.ofName? (String.ofList elem)).map (.pointer .global · false)
    | 'l' :: elem => (Scalar.ofName? (String.ofList elem)).map (.pointer .workgroup · true)
    | _ => none

/-- The token of a parameter; a constant pointer to local memory has none. -/
def token? : Param → Option (List Char)
  | .scalar type => some type.name.toList
  | .pointer .global elem true => some ('p' :: elem.name.toList)
  | .pointer .global elem false => some ('c' :: elem.name.toList)
  | .pointer .workgroup elem true => some ('l' :: elem.name.toList)
  | .pointer .workgroup _ false => none

end Param

namespace Signature

/-- The signature of an empty parameter list. -/
def empty : String := "v"

/-- The texts around the last `__`. -/
def splitLast : List Char → Option (List Char × List Char)
  | [] => none
  | c :: rest =>
    match splitLast rest with
    | some (kernel, signature) => some (c :: kernel, signature)
    | none =>
      match c, rest with
      | '_', '_' :: signature => some ([], signature)
      | _, _ => none

/-- The kernel name and the signature of a name. -/
def split (base : String) : Except SignatureError (String × String) :=
  match splitLast base.toList with
  | none => .error .missingSeparator
  | some (kernel, signature) =>
    if kernel.isEmpty then .error .emptyKernel
    else if signature.isEmpty then .error .emptySignature
    else .ok (String.ofList kernel, String.ofList signature)

/-- The parameters of a list of tokens, or the first token that is none. -/
def parseTokens : List (List Char) → Except SignatureError (List Param)
  | [] => .ok []
  | token :: rest =>
    match Param.ofToken? token with
    | none => .error (.unknownToken (String.ofList token))
    | some p =>
      match parseTokens rest with
      | .ok params => .ok (p :: params)
      | .error e => .error e

/-- The parameters of a signature. -/
def parse (signature : String) : Except SignatureError (List Param) :=
  if signature = empty then .ok [] else parseTokens (Text.pieces '_' signature.toList)

/-- The signature of a parameter list, if every parameter has a token. -/
def signature? (params : List Param) : Option String :=
  match params with
  | [] => some empty
  | params => (params.mapM Param.token?).map fun tokens => String.ofList (Text.unpieces '_' tokens)

end Signature

end KernelCatalog
