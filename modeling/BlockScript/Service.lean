import BlockScript.Json.Encoding
import BlockScript.Listing

/-! # The generation service

A request brings a description in the exchange format, and the response has the listing or says why
there is none. A datum of the wrong shape that is no verdict on the description leaves a response
without a body.
-/

namespace BlockScript

namespace Service

/-- The configuration of the service. -/
structure Config where
  /-- Whether indices start with one when neither the request nor the description says so: they do
  exactly when this is `1`. -/
  oneBased : Option String
  /-- Code for the top of procedure bodies. -/
  statementPrefix : Option String

/-- A request. -/
structure Request where
  contentType : Option String
  body : ByteArray

/-- A response. -/
structure Response where
  status : Nat
  body : Option Value

/-- Whether a character is a blank around a header value. -/
def isBlank (c : Char) : Bool := c = ' ' || c = '\t'

/-- The bare type of a header value: what precedes its parameters, in lower case. -/
def bareType (header : String) : List Char :=
  let chars := ((header.toList.takeWhile (· ≠ ';')).dropWhile isBlank).reverse
  (chars.dropWhile isBlank).reverse.map Char.toLower

/-- Whether a header value announces the exchange format or one based on it. -/
def announcesJson (header : String) : Bool :=
  let bare := bareType header
  bare == "application/json".toList ||
    ("application/".toList.isPrefixOf bare && "+json".toList.isSuffixOf bare)

/-- The data that a request brings, if they can be read. -/
def payload? (request : Request) : Option Value := do
  let header ← request.contentType
  guard (announcesJson header)
  (Json.read (← Json.decode request.body)).toOption

/-- What the service calls a family of verdicts. -/
def familyLabel : Family → String
  | .invalid => "validation"
  | .malformed => "malformed_graph"
  | .cyclic => "cyclic_graph"

/-- A refusal. -/
def refusal (error : String) (more : Table Value) : Response :=
  ⟨400, some (.object ([("success", .bool false), ("error", .text error)] ++ more))⟩

/-- The convention for indices: the request's own, or else the configured one unless the description
has one. -/
def oneBased (config : Config) (description : Value) (own : Option Bool) :
    Attempt (Option Bool) := do
  match own, config.oneBased with
  | none, some setting =>
      let options := (← description.member "options").orElse (.object [])
      match ← options.member? "oneBasedIndex" with
      | some _ => return none
      | none => return some (setting = "1")
  | own, _ => return own

/-- The listing of a description. Kinds are checked before links. -/
def listing (config : Config) (description : Value) (own : Option Bool) : Attempt Listing := do
  let nodes ← Forest.listMember description "nodes"
  Kind.checkAll (← nodes.elements)
  let program ← Program.ofValue description
  let oneBased ← oneBased config description own
  (program.generate { oneBased, statementPrefix := config.statementPrefix }).result

/-- The response to the result of a generation. -/
def conclude : Attempt Listing → Response
  | .ok listing =>
      ⟨200, some (.object [("success", .bool true), ("code", .text listing.code),
        ("mapping", listing.spanValues)])⟩
  | .error (.rejected verdict) =>
      refusal (familyLabel verdict.family)
        [("message", .text verdict.message), ("details", .object verdict.details)]
  | .error _ => ⟨500, none⟩

/-- The response to an object of data. -/
def respondTo (config : Config) (members : Table Value) : Response :=
  let description := (members.get? "ir").getD .null
  if !description.isTrue then refusal "no_ir" []
  else
    match (members.get? "oneBasedIndex").getD .null with
    | .null => conclude (listing config description none)
    | .bool own => conclude (listing config description (some own))
    | _ => refusal "bad_option" [("message", .text "oneBasedIndex must be a boolean")]

/-- The response to a request. -/
def respond (config : Config) (request : Request) : Response :=
  match payload? request with
  | none => refusal "no_json" []
  | some data =>
      if !data.isTrue then refusal "no_json" []
      else
        match data with
        | .object members => respondTo config members
        | _ => ⟨500, none⟩

/-- The response that lists the kinds of blocks. -/
def kinds : Response := ⟨200, some (.object [("kinds", .list (Kind.labels.map .text))])⟩

end Service

end BlockScript
