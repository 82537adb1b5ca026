import BlockScript.Proofs.Files
import BlockScript.Proofs.Formula.Blocks
import BlockScript.Proofs.SpanDocument
import BlockScript.Service

/-! # The service and the command

The service checks the kinds of all nodes before it loads a description; the command has no such
check and fails when a block of an unknown kind is generated. Apart from it they do the same: the
listing that the service responds with is the one that the command writes, what the command rejects
the service refuses, and the command changes no file unless it succeeds (`frontEnds_agree`).
-/

namespace BlockScript

/-- The listing of a description. -/
def Program.listing (options : Options) (description : Value) : Attempt Listing := do
  let program ← ofValue description
  (program.generate options).result

/-! ## Types of nodes -/

/-- A node is an object, and its type is a text that is allowed. -/
def Value.Typed (allowed : String → Prop) (value : Value) : Prop :=
  ∃ node label, value = .object node ∧ Table.get? node "type" = some (.text label) ∧ allowed label

/-- The nodes of a description, when it has any, are a list of nodes with types that are allowed. -/
def NodeTypes (members : Table Value) (allowed : String → Prop) : Prop :=
  ∀ nodes, members.get? "nodes" = some nodes →
    ∃ items, nodes = .list items ∧ ∀ item ∈ items, item.Typed allowed

/-- The nodes are read as a list, which is empty when the description has none. -/
theorem NodeTypes.exists_items {members : Table Value} {allowed : String → Prop}
    (types : NodeTypes members allowed) :
    ∃ items, Forest.listMember (.object members) "nodes" = .ok (.list items) ∧
      ∀ item ∈ items, item.Typed allowed := by
  have member : Forest.listMember (.object members) "nodes" =
      .ok (((members.get? "nodes").getD .null).orElse (.list [])) := rfl
  rw [member]
  cases found : members.get? "nodes" with
  | none => exact ⟨[], rfl, List.forall_mem_nil _⟩
  | some nodes =>
      obtain ⟨items, rfl, each⟩ := types nodes found
      refine ⟨items, ?_, each⟩
      cases items with
      | nil => rfl
      | cons => rfl

namespace Kind

section Check

variable {node : Table Value} {label : String}
  (typed : Table.get? node "type" = some (.text label)) (rest : List Value)

include typed

/-- The type of a node is read as the text that it is. -/
theorem member_type : (Value.object node).member "type" = .ok (.text label) := by
  rw [Value.member, Value.member?, typed]
  rfl

/-- A node of a kind that is known is passed over. -/
theorem checkAll_of_known {kind : Kind} (known : ofLabel? label = some kind) :
    checkAll (.object node :: rest) = checkAll rest := by
  have named : ofValue? (.text label) = .ok (some kind) := congrArg Except.ok known
  rw [checkAll, member_type typed]
  simp only [bind, Except.bind, named, Option.isNone_some, Bool.false_eq_true, ↓reduceIte]

/-- A node of a kind that is not known is rejected. -/
theorem checkAll_of_unknown (unknown : ofLabel? label = none) :
    ∃ verdict, checkAll (.object node :: rest) = .error (.rejected verdict) := by
  have named : ofValue? (.text label) = .ok none := congrArg Except.ok unknown
  rw [checkAll, member_type typed]
  simp only [bind, Except.bind, named, Option.isNone_none, ↓reduceIte]
  exact ⟨_, rfl⟩

end Check

variable {items : List Value}

/-- Nodes with texts as types are accepted or rejected. -/
theorem checkAll_of_texts (typed : ∀ item ∈ items, item.Typed fun _ => True) :
    checkAll items = .ok () ∨ ∃ verdict, checkAll items = .error (.rejected verdict) := by
  induction items with
  | nil => exact .inl rfl
  | cons item rest ih =>
      obtain ⟨⟨node, label, rfl, given, -⟩, later⟩ := List.forall_mem_cons.mp typed
      cases known : ofLabel? label with
      | none => exact .inr (checkAll_of_unknown given rest known)
      | some kind =>
          rw [checkAll_of_known given rest known]
          exact ih later

/-- Nodes whose types are the labels of kinds are accepted. -/
theorem checkAll_of_labels
    (typed : ∀ item ∈ items, item.Typed fun label => ∃ kind : Kind, label = kind.label) :
    checkAll items = .ok () := by
  induction items with
  | nil => rfl
  | cons item rest ih =>
      obtain ⟨⟨node, _, rfl, given, kind, rfl⟩, later⟩ := List.forall_mem_cons.mp typed
      rw [checkAll_of_known given rest (ofLabel?_label kind)]
      exact ih later

end Kind

/-! ## The service -/

namespace Service

/-- The response with a listing. -/
def success (code : String) (mapping : Value) : Response :=
  ⟨200, some (.object [("success", .bool true), ("code", .text code), ("mapping", mapping)])⟩

/-- Without configuration, the listing of a description is made once its kinds are checked. -/
theorem listing_eq {members : Table Value} {items : List Value}
    (nodes : Forest.listMember (.object members) "nodes" = .ok (.list items)) :
    listing ⟨none, none⟩ (.object members) none = (do
      Kind.checkAll items
      Program.listing {} (.object members)) := by
  rw [listing, nodes]
  rfl

/-- A request that brings a description is answered by what comes of its listing. -/
theorem respond_eq {request : Request} {members : Table Value} (nonempty : members ≠ [])
    (brought : payload? request = some (.object [("ir", .object members)])) (config : Config) :
    respond config request = conclude (listing config (.object members) none) := by
  have described : (Value.object members).isTrue = true := by
    simpa [Value.isTrue] using nonempty
  rw [respond, brought]
  change respondTo config [("ir", .object members)] = _
  simp [respondTo, Table.get?, described]

/-- A failure is never answered by success. -/
theorem status_conclude_ne (fault : Fault) : (conclude (.error fault)).status ≠ 200 := by
  cases fault with
  | rejected verdict =>
      intro same
      cases same
  | _ => decide

end Service

/-! ## The command -/

namespace Command

variable {invocation : Invocation} {options : Options} {description : Value} {listing : Listing}

/-- A listing that can be made is planned to be written. -/
theorem planFor_of_listing (made : Program.listing options description = .ok listing) :
    ∃ notices, planFor invocation options description = ⟨notices, finish invocation listing⟩ := by
  obtain ⟨program, loaded, generated⟩ := Attempt.bind_eq_ok.mp made
  rw [planFor, loaded]
  simp only [generated]
  exact ⟨_, rfl⟩

/-- A listing that cannot be made is planned to be given up. -/
theorem planFor_of_fault {fault : Fault}
    (failed : Program.listing options description = .error fault) :
    ∃ notices, planFor invocation options description = stop notices fault := by
  rw [planFor]
  rw [Program.listing] at failed
  cases loaded : Program.ofValue description with
  | error other =>
      rw [loaded] at failed
      cases failed
      exact ⟨[], rfl⟩
  | ok program =>
      rw [loaded] at failed
      have failed : (program.generate options).result = .error fault := failed
      simp only [failed]
      exact ⟨_, rfl⟩

/-- A command that stops leaves the files alone. It exits with two on a verdict, unless the details
of the verdict cannot be shown, and breaks otherwise. -/
theorem carryOut_stop (debug : Bool) (files : Tree) (notices : List Notice) (fault : Fault) :
    (carryOut debug files (stop notices fault)).files = files ∧
      ((carryOut debug files (stop notices fault)).result = .ok 2 ∧
          (∃ verdict, fault = .rejected verdict) ∨
        ∃ other, (carryOut debug files (stop notices fault)).result = .error other) := by
  cases fault with
  | rejected verdict =>
      cases told : (Value.object verdict.details).shown? with
      | some details =>
          simp only [stop, told, carryOut]
          exact ⟨trivial, .inl ⟨trivial, verdict, rfl⟩⟩
      | none =>
          simp only [stop, told, carryOut]
          exact ⟨trivial, .inr ⟨_, rfl⟩⟩
  | _ => exact ⟨rfl, .inr ⟨_, rfl⟩⟩

/-- A word alone is the source. -/
theorem ofArguments_word {source : String} (plain : ∀ c ∈ source.toList.head?, c ≠ '-')
    (statementPrefix : Option String) :
    Invocation.ofArguments statementPrefix [source] =
      .ok ⟨source, none, none, statementPrefix, false⟩ := by
  have other : source ≠ mark := by
    rintro rfl
    exact plain '-' rfl rfl
  have word : Argument.ofText source = .ok (.word source) := by
    unfold Argument.ofText
    split
    · next spelled => exact absurd rfl (plain '-' (by rw [spelled]; rfl))
    · next spelled => exact absurd rfl (plain '-' (by rw [spelled]; rfl))
    · rfl
  have forms : forms [source] = .ok ([.word source], none) := by
    rw [forms, if_neg other, word]
    rfl
  rw [Invocation.ofArguments, forms]
  rfl

/-- The command is asked for the listing of a description in a file with a name of its own, no
option says how, and the listing and its spans can be written next to the file. -/
structure Prepared (files : Tree) (arguments : List String) (name : String) (description : Value) :
    Prop where
  asked : ∃ debug, Invocation.ofArguments none arguments =
    .ok ⟨name ++ ".json", none, none, none, debug⟩
  named : ∃ c ∈ name.toList.getLast?, c ≠ '/'
  described : ∃ text, files.read (name ++ ".json") = .ok text ∧ Json.read text = .ok description
  writable : ∀ suffix ∈ [".py", ".map.json"], files.Writable (.ofString (name ++ suffix))

/-- The code of a listing and the mapping of its spans are in the files of a name. The mapping is
read back as it was written, unless there are too many lines for their numbers to be read. -/
structure Written (files : Tree) (name code : String) (mapping : Value) : Prop where
  listed : files.Holds (.ofString (name ++ ".py")) code
  mapped : files.Holds (.ofString (name ++ ".map.json"))
    (Json.paged (.object [("mappings", mapping)]))
  legible : Text.lineCount code + 1 < 10 ^ Numeral.greatestLength →
    Json.read (Json.paged (.object [("mappings", mapping)])) = .ok (.object [("mappings", mapping)])

section Run

variable {files : Tree} {arguments : List String} {name : String}
  (prepared : Prepared files arguments name description)

include prepared

/-- The command carries out the plan for the description. -/
theorem exists_run : ∃ debug, run ⟨none, none⟩ files arguments =
    carryOut debug files (planFor ⟨name ++ ".json", none, none, none, debug⟩ {} description) := by
  obtain ⟨debug, asked⟩ := prepared.asked
  obtain ⟨text, held, read⟩ := prepared.described
  refine ⟨debug, ?_⟩
  simp only [run, asked, plan, held, read]
  rfl

/-- A listing and its spans are written to the files of the name. -/
theorem exists_writeAll (code spans : String) : ∃ after,
    writeAll files [⟨(Path.ofString (name ++ ".json")).withSuffix ".py", code⟩,
      ⟨(Path.ofString (name ++ ".json")).withSuffix ".map.json", spans⟩] = (.ok (), after) ∧
    after.Holds (.ofString (name ++ ".py")) code ∧
    after.Holds (.ofString (name ++ ".map.json")) spans := by
  rw [Path.withSuffix_ofString prepared.named (by decide) (by decide),
    Path.withSuffix_ofString prepared.named (by decide) (by decide)]
  have different : (Path.ofString (name ++ ".py")).names.getLast? ≠
      (Path.ofString (name ++ ".map.json")).names.getLast? :=
    Path.getLast?_names_ne name (by decide) (by decide) (by decide)
  have apart : ([⟨.ofString (name ++ ".py"), code⟩, ⟨.ofString (name ++ ".map.json"), spans⟩].map
      Output.name?).Nodup := by
    simpa [Output.name?] using different
  obtain ⟨after, written, held⟩ := writeAll_holds apart (by simpa using prepared.writable)
  simp only [List.forall_mem_cons] at held
  exact ⟨after, written, held.1, held.2.1⟩

/-- **With a listing the command succeeds** and has written it. -/
theorem run_of_listing (made : Program.listing {} description = .ok listing) :
    (run ⟨none, none⟩ files arguments).result = .ok 0 ∧
      Written (run ⟨none, none⟩ files arguments).files name listing.code listing.spanValues := by
  obtain ⟨debug, ran⟩ := exists_run prepared
  obtain ⟨notices, planned⟩ := planFor_of_listing made
  obtain ⟨after, written, code, mapping⟩ :=
    exists_writeAll prepared listing.code (spanDocument listing)
  obtain ⟨_, _, read⟩ := prepared.described
  obtain ⟨program, loaded, generated⟩ := Attempt.bind_eq_ok.mp made
  have legible := Program.read_spanDocument (Json.readable_of_read read) loaded generated
  rw [ran, planned]
  simp only [carryOut, finish, listingPath, spanPath, written]
  exact ⟨trivial, code, mapping, legible⟩

/-- Without a listing the command gives up. -/
theorem exists_run_of_fault {fault : Fault}
    (failed : Program.listing {} description = .error fault) : ∃ debug notices,
      run ⟨none, none⟩ files arguments = carryOut debug files (stop notices fault) := by
  obtain ⟨debug, ran⟩ := exists_run prepared
  obtain ⟨notices, planned⟩ := planFor_of_fault failed
  exact ⟨debug, notices, by rw [ran, planned]⟩

/-- Without a listing the command does not succeed, and it exits with two on a verdict only. -/
theorem result_of_fault {fault : Fault} (failed : Program.listing {} description = .error fault) :
    (run ⟨none, none⟩ files arguments).result ≠ .ok 0 ∧
      ((run ⟨none, none⟩ files arguments).result = .ok 2 →
        ∃ verdict, fault = .rejected verdict) := by
  obtain ⟨debug, notices, ran⟩ := exists_run_of_fault prepared failed
  rw [ran]
  rcases (carryOut_stop debug files notices fault).2 with ⟨rejection, verdict⟩ | ⟨other, broken⟩
  · rw [rejection]
    exact ⟨by simp, fun _ => verdict⟩
  · rw [broken]
    exact ⟨by simp, by simp⟩

/-- Without success no file is changed. -/
theorem files_run (failure : (run ⟨none, none⟩ files arguments).result ≠ .ok 0) :
    (run ⟨none, none⟩ files arguments).files = files := by
  cases made : Program.listing {} description with
  | ok listing => exact absurd (run_of_listing prepared made).1 failure
  | error fault =>
      obtain ⟨debug, notices, ran⟩ := exists_run_of_fault prepared made
      rw [ran]
      exact (carryOut_stop debug files notices fault).1

end Run

end Command

/-! ## Both -/

/-- What the service and the command say of one description. -/
structure FrontEndsAgree (members : Table Value) (files : Tree) (name : String)
    (response : Service.Response) (report : Command.Report) : Prop where
  /-- What the service responds with, the command writes. -/
  written : response.status = 200 → ∃ code mapping, response = Service.success code mapping ∧
    report.result = .ok 0 ∧ Command.Written report.files name code mapping
  /-- What the command writes, the service responds with, if it knows all kinds. -/
  responded : report.result = .ok 0 →
    NodeTypes members (fun label => ∃ kind : Kind, label = kind.label) →
      ∃ code mapping, response = Service.success code mapping ∧
        Command.Written report.files name code mapping
  /-- What the command rejects, the service refuses. -/
  refused : report.result = .ok 2 → response.status = 400
  /-- Without success the command changes no file. -/
  unchanged : report.result ≠ .ok 0 → report.files = files

/-- **The service and the command agree.** Without configuration, take a description that is an
object with something in it, whose nodes have texts as types. A request brings it to the service,
and the command finds it in a file next to which it can write. Then a listing that the service
responds with is the one that the command writes, with the same mapping of its spans; a listing that
the command writes is the one that the service responds with, when the kinds of all nodes are known;
what the command rejects is refused by the service; and the command changes no file unless it exits
with success. -/
theorem frontEnds_agree {members : Table Value} {files : Tree} {arguments : List String}
    {name : String} {request : Service.Request} (nonempty : members ≠ [])
    (types : NodeTypes members fun _ => True)
    (brought : Service.payload? request = some (.object [("ir", .object members)]))
    (prepared : Command.Prepared files arguments name (.object members)) :
    FrontEndsAgree members files name (Service.respond ⟨none, none⟩ request)
      (Command.run ⟨none, none⟩ files arguments) := by
  obtain ⟨items, nodes, typed⟩ := types.exists_items
  have response := Service.respond_eq nonempty brought ⟨none, none⟩
  rw [Service.listing_eq nodes] at response
  rcases Kind.checkAll_of_texts typed with accepted | ⟨verdict, rejected⟩
  · rw [accepted] at response
    cases made : Program.listing {} (.object members) with
    | ok listing =>
        rw [made] at response
        have responded : Service.respond ⟨none, none⟩ request =
          Service.success listing.code listing.spanValues := response
        obtain ⟨success, written⟩ := Command.run_of_listing prepared made
        constructor
        case written => exact fun _ => ⟨_, _, responded, success, written⟩
        case responded => exact fun _ _ => ⟨_, _, responded, written⟩
        case refused =>
          intro rejection
          rw [success] at rejection
          cases rejection
        case unchanged => exact Command.files_run prepared
    | error fault =>
        rw [made] at response
        have refusal : Service.respond ⟨none, none⟩ request = Service.conclude (.error fault) :=
          response
        obtain ⟨failure, rejection⟩ := Command.result_of_fault prepared made
        constructor
        case written =>
          intro success
          rw [refusal] at success
          exact absurd success (Service.status_conclude_ne fault)
        case responded => exact fun success => absurd success failure
        case refused =>
          intro rejected
          obtain ⟨verdict, rfl⟩ := rejection rejected
          rw [refusal]
          rfl
        case unchanged => exact Command.files_run prepared
  · -- A node of an unknown kind: the command may still succeed, if no code is made of it.
    rw [rejected] at response
    have refusal : (Service.respond ⟨none, none⟩ request).status = 400 :=
      congrArg Service.Response.status response
    constructor
    case written =>
      intro success
      rw [refusal] at success
      cases success
    case responded =>
      intro _ known
      obtain ⟨others, nodesToo, labels⟩ := known.exists_items
      cases nodes.symm.trans nodesToo
      rw [Kind.checkAll_of_labels labels] at rejected
      cases rejected
    case refused => exact fun _ => refusal
    case unchanged => exact Command.files_run prepared

namespace FrontEndsAgree

/-- A description with one node of a kind. -/
def describeNode (kind : String) : Table Value :=
  [("nodes", .list [.object [("id", .text "a"), ("type", .text kind)]])]

/-- A request that brings the description. -/
def request (kind : String) : Service.Request :=
  ⟨some "application/json", (Json.paged (.object [("ir", .object (describeNode kind))])).toUTF8⟩

/-- A directory with nothing but the description. -/
def directory (kind : String) : Tree :=
  ⟨[], [(["p.json"], Json.paged (.object (describeNode kind)))]⟩

/-- The type of the node is a text. -/
theorem nodeTypes_describeNode (kind : String) : NodeTypes (describeNode kind) fun _ => True := by
  intro nodes found
  cases found
  refine ⟨_, rfl, ?_⟩
  rw [List.forall_mem_singleton]
  exact ⟨_, _, rfl, rfl, trivial⟩

/-- The description can be written and read back. -/
theorem readable_describeNode (kind : String) : Json.Readable (.object (describeNode kind)) := by
  have names : ["id", "type"].Nodup := by decide
  refine .object (List.nodup_singleton _) ?_
  rw [describeNode, List.forall_mem_singleton]
  refine .list ?_
  rw [List.forall_mem_singleton]
  refine .object names ?_
  simp only [List.forall_mem_cons]
  exact ⟨.text _, .text _, List.forall_mem_nil _⟩

/-- The request brings the description. -/
theorem payload?_request (kind : String) (decoded : Json.decode (request kind).body =
      some (Json.paged (.object [("ir", .object (describeNode kind))]))) :
    Service.payload? (request kind) = some (.object [("ir", .object (describeNode kind))]) := by
  have announced : Service.announcesJson "application/json" = true := by decide +kernel
  have read : Json.read (Json.paged (.object [("ir", .object (describeNode kind))])) =
      .ok (.object [("ir", .object (describeNode kind))]) := by
    refine Json.read_write Json.Layout.spaced_page (.object (List.nodup_singleton _) ?_)
    rw [List.forall_mem_singleton]
    exact readable_describeNode kind
  rw [Service.payload?, decoded]
  simp only [request, Option.bind_eq_bind, Option.bind_some, announced, read, guard]
  rfl

/-- The command can be run in the directory. -/
theorem prepared_directory (kind : String) :
    Command.Prepared (directory kind) ["p.json"] "p" (.object (describeNode kind)) where
  asked := ⟨false, Command.ofArguments_word (by rintro c ⟨⟩; decide) none⟩
  named := ⟨'p', rfl, by decide⟩
  described := ⟨_, rfl, Json.read_write Json.Layout.spaced_page (readable_describeNode kind)⟩
  writable := by
    have listed : Path.ofString ("p" ++ ".py") = ⟨"", ["p.py"]⟩ := by decide +kernel
    have mapped : Path.ofString ("p" ++ ".map.json") = ⟨"", ["p.map.json"]⟩ := by decide +kernel
    simp only [List.forall_mem_cons, listed, mapped]
    exact ⟨⟨"", _, rfl⟩, ⟨"", _, rfl⟩, List.forall_mem_nil _⟩

end FrontEndsAgree

open FrontEndsAgree in
/-- A statement is written and responded with, and a node of no kind is rejected and refused. -/
theorem frontEnds_agree_samples :
    (∃ code mapping,
      Service.respond ⟨none, none⟩ (request "text_print") = Service.success code mapping ∧
      (Command.run ⟨none, none⟩ (directory "text_print") ["p.json"]).result = .ok 0 ∧
      Command.Written (Command.run ⟨none, none⟩ (directory "text_print") ["p.json"]).files "p"
        code mapping) ∧
    (Command.run ⟨none, none⟩ (directory "no_such_kind") ["p.json"]).result = .ok 2 ∧
    (Service.respond ⟨none, none⟩ (request "no_such_kind")).status = 400 ∧
    (Command.run ⟨none, none⟩ (directory "no_such_kind") ["p.json"]).files =
      directory "no_such_kind" := by
  have brought := payload?_request "text_print" (by decide +kernel)
  have success : (Service.respond ⟨none, none⟩ (request "text_print")).status = 200 := by
    rw [Service.respond_eq (List.cons_ne_nil _ _) brought]
    decide +kernel
  have printed := frontEnds_agree (List.cons_ne_nil _ _) (nodeTypes_describeNode "text_print")
    brought (prepared_directory "text_print")
  have rejection :
      (Command.run ⟨none, none⟩ (directory "no_such_kind") ["p.json"]).result = .ok 2 :=
    Attempt.eq_ok_of_toOption (by decide +kernel)
  have rejected := frontEnds_agree (List.cons_ne_nil _ _) (nodeTypes_describeNode "no_such_kind")
    (payload?_request _ (by decide +kernel)) (prepared_directory "no_such_kind")
  have failure :
      (Command.run ⟨none, none⟩ (directory "no_such_kind") ["p.json"]).result ≠ .ok 0 := by
    rw [rejection]
    intro same
    cases same
  exact ⟨printed.written success, rejection, rejected.refused rejection,
    rejected.unchanged failure⟩

end BlockScript
