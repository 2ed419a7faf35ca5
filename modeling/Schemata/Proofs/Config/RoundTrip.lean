import Schemata.Config.Read
import Schemata.Proofs.Json.Keeping
import Schemata.Proofs.Json.Members

/-! A configuration is read back from every text that writes its value. The members of a connection are looked at only
    when all of them are known, so they are told by the data that they are kept as. A port has sixteen bits in all that
    is read, so what was read is read back as well. -/

namespace Schemata

open Json

/-! ### Scalars inside a connection -/

/-- How a scalar is kept. -/
def Value.scalar? : Value → Option Tree
  | null => some .null
  | number n => if (Numeral.ofNat n).isFinite then some (.number (.ofNat n)) else none
  | text s => some (.text s)
  | _ => none

theorem readValue_eq_readScalar {c : Char} (hlist : c ≠ '[') (hobject : c ≠ '\x7b') (room : Nat) (s : Text) :
    readValue true room (c :: s) = readScalar true (c :: s) := by
  have hnoList : ∀ r, c :: s = '[' :: r → False := by
    rintro r ⟨⟩
    exact hlist rfl
  have hnoObject : ∀ r, c :: s = '\x7b' :: r → False := by
    rintro r ⟨⟩
    exact hobject rfl
  cases room <;> rw [readValue] <;> assumption

theorem readScalar_digit {c : Char} (hc : c.isDigit = true) (s : Text) :
    readScalar true (c :: s) = (readNumber true (c :: s)).map fun x => (.number x.1, x.2) := by
  have hstart : (c == '-' || c.isDigit) = true := by rw [hc, Bool.or_true]
  rw [readScalar, if_pos hstart]
  all_goals
    rintro rfl
    cases hc

theorem takes_readValue {v : Value} {tree : Tree} (h : v.scalar? = some tree) (room : Nat) :
    Takes (readValue true room) v.tokens tree := by
  intro text rest hlaid hrest
  cases v with
  | null =>
    cases h
    rw [Laid.null hlaid, readValue_eq_readScalar (by decide) (by decide)]
    exact congrArg (Except.map fun r => (Tree.null, r)) (readWord_append _ _)
  | number n =>
    rw [Value.scalar?, Option.ite_none_right_eq_some] at h
    obtain ⟨hfinite, htree⟩ := h
    cases htree
    obtain ⟨c, digits, hdigits, hc⟩ := exists_digit n
    rw [Value.tokens, hdigits] at hlaid
    rw [hlaid.skipSpace_single (isSpace_of_isDigit hc),
      readValue_eq_readScalar (ne_of_isDigit hc rfl) (ne_of_isDigit hc rfl), readScalar_digit hc, ← List.cons_append,
      ← hdigits, readNumber_decimal hfinite hrest]
    rfl
  | text s =>
    cases h
    obtain ⟨inside, behind, htext, hread, hbehind⟩ := hlaid.readString
    cases hbehind
    rw [htext, readValue_eq_readScalar (by decide) (by decide)]
    exact congrArg (Except.map fun x => (Tree.text x.1, x.2)) hread
  | bool b => cases h
  | list items => cases h
  | object members => cases h

/-! ### Connections -/

namespace ConnectionKind

theorem ofName?_name (kind : ConnectionKind) : ofName? kind.name = some kind := by
  cases kind <;> decide +kernel

end ConnectionKind

theorem takes_readKind (kind : ConnectionKind) : Takes readKind [jsonString kind.name] kind := by
  intro text rest hlaid hrest
  have hname := (takesItem_readText kind.name).takes text rest hlaid hrest
  rw [readKind, hname]
  simp only [bind, Except.bind, kind.ofName?_name]

/-- A kept member stands for a written one. -/
structure Keeps (member : Text × Value) (kept : Text × Tree) : Prop where
  key : kept.1 = member.1
  value : member.2.scalar? = some kept.2

/-- The other members of a connection are kept in their order. -/
theorem steps_members {kind : ConnectionKind} {members : List (Text × Value)} {kept : List (Text × Tree)}
    (h : List.Forall₂ Keeps members kept) (htype : ∀ m ∈ members, m.1 ≠ ("type" : Text)) (before : List (Text × Tree)) :
    Steps readTaggedMember (some kind, before) (Value.memberTokens members) (some kind, before ++ kept) := by
  induction h generalizing before with
  | nil =>
    rw [List.append_nil]
    exact .nil _
  | @cons member entry members kept hkeeps _ ih =>
    obtain ⟨hmember, hmembers⟩ := List.forall_mem_cons.mp htype
    have hlater := ih hmembers (before ++ [entry])
    rw [List.append_assoc, List.singleton_append] at hlater
    refine .cons (fun text rest hlaid hrest => ?_) hlater
    obtain ⟨behind, hcolon, hbehind⟩ := hlaid.readColon
    have hvalue := takes_readValue hkeeps.value connectionRoom behind rest hbehind hrest
    rw [readTaggedMember, if_neg (by simpa using hmember)]
    simp only [bind, Except.bind, hcolon, hvalue, ← hkeeps.key]

namespace Connection

/-- A text that may be null, as it is kept. -/
def textTree : Option Text → Tree
  | none => .null
  | some s => .text s

/-- The members of a connection as they are kept. -/
def kept : Connection → List (Text × Tree)
  | file path => [("path", .text path)]
  | memory => []
  | server s =>
    [("connection_string", textTree s.connectionString), ("host", textTree s.host), ("user", textTree s.user),
      ("database", textTree s.database), ("port", .number (.ofNat s.port)), ("password", textTree s.password)]

/-- A port, if there is one, has sixteen bits. -/
def PortFits : Connection → Prop
  | server s => s.port < 65536
  | _ => True

theorem scalar?_ofOption (s : Option Text) : (Value.ofOption Value.text s).scalar? = some (textTree s) := by
  cases s <;> rfl

theorem keeps_members {c : Connection} (hc : c.PortFits) : List.Forall₂ Keeps c.members c.kept := by
  cases c with
  | file path => exact .cons ⟨rfl, rfl⟩ .nil
  | memory => exact .nil
  | server s =>
    have hport : (Value.number s.port).scalar? = some (.number (.ofNat s.port)) := by
      have hlength : (decimal s.port).length ≤ 5 :=
        (Nat.length_toDigits_le_iff (by decide) (by decide)).mpr (Nat.lt_trans hc (by decide))
      rw [Value.scalar?, if_pos (Numeral.isFinite_ofNat (by omega))]
    exact .cons ⟨rfl, scalar?_ofOption _⟩ (.cons ⟨rfl, scalar?_ofOption _⟩ (.cons ⟨rfl, scalar?_ofOption _⟩
      (.cons ⟨rfl, scalar?_ofOption _⟩ (.cons ⟨rfl, hport⟩ (.cons ⟨rfl, scalar?_ofOption _⟩ .nil)))))

/-- A field is found by its name if no two have one name. -/
theorem field?_of_mem {members : List (Text × Tree)} {name : Text} {v : Tree}
    (hnames : (members.map Prod.fst).Nodup) (h : (name, v) ∈ members) : field? members name = .ok (some v) := by
  obtain ⟨before, after, rfl⟩ := List.append_of_mem h
  rw [List.map_append, List.map_cons, List.nodup_append] at hnames
  obtain ⟨-, hafter, hbefore⟩ := hnames
  have hne : ∀ m ∈ before ++ after, ¬(m.1 == name) = true := fun m hm heq => by
    have hname : name ∈ (before ++ after).map Prod.fst := beq_iff_eq.mp heq ▸ List.mem_map_of_mem hm
    rw [List.map_append, List.mem_append] at hname
    rcases hname with hname | hname
    · exact hbefore name hname name List.mem_cons_self rfl
    · exact (List.nodup_cons.mp hafter).1 hname
  have hnone : before.filter (·.1 == name) = [] ∧ after.filter (·.1 == name) = [] :=
    ⟨List.filter_eq_nil_iff.mpr fun m hm => hne m (List.mem_append_left _ hm),
      List.filter_eq_nil_iff.mpr fun m hm => hne m (List.mem_append_right _ hm)⟩
  have hself : ((name, v).1 == name) = true := beq_self_eq_true name
  rw [field?, List.filter_append, List.filter_cons, if_pos hself, hnone.1, hnone.2]
  rfl

theorem textField_of_mem {members : List (Text × Tree)} {name : Text} {s : Option Text}
    (hnames : (members.map Prod.fst).Nodup) (h : (name, textTree s) ∈ members) :
    textField members name = .ok s := by
  rw [textField, field?_of_mem hnames h]
  cases s <;> rfl

theorem portField_of_mem {members : List (Text × Tree)} {port : Nat} (hport : port < 65536)
    (hnames : (members.map Prod.fst).Nodup) (h : (("port" : Text), .number (.ofNat port)) ∈ members) :
    portField members = .ok port := by
  rw [portField, field?_of_mem hnames h]
  simp only [Numeral.natural?_ofNat, if_pos hport]

theorem ofMembers_kept {c : Connection} (hc : c.PortFits) : ofMembers c.kind c.kept = .ok c := by
  cases c with
  | file path =>
    have hpath : field? (kept (file path)) "path" = .ok (some (.text path)) :=
      field?_of_mem (List.nodup_cons.mpr ⟨nofun, .nil⟩) List.mem_cons_self
    rw [kind, ofMembers, hpath]
  | memory => rfl
  | server s =>
    have hnames : ((kept (server s)).map Prod.fst).Nodup := by
      change ConnectionKind.server.fields.Nodup
      decide +kernel
    have hport := portField_of_mem hc hnames (by simp [kept])
    have htext : ∀ name value, (name, textTree value) ∈ kept (server s) →
        textField (kept (server s)) name = .ok value := fun name value h => textField_of_mem hnames h
    rw [kind, ofMembers, htext "connection_string" s.connectionString (by simp [kept]),
      htext "host" s.host (by simp [kept]), htext "user" s.user (by simp [kept]),
      htext "database" s.database (by simp [kept]), hport, htext "password" s.password (by simp [kept])]
    rfl

end Connection

theorem Value.starts_object (members : List (Text × Value)) : Starts '\x7b' (object members).tokens := ⟨rfl, rfl⟩

/-- A connection is read back. -/
theorem takes_readConnection {c : Connection} (hc : c.PortFits) : Takes readConnection c.value.tokens c := by
  intro text rest hlaid _
  have htypes : ∀ m ∈ c.members, m.1 ≠ ("type" : Text) := by
    have hnames : ("type" : Text) ∉ c.kind.fields := by cases c.kind <;> decide +kernel
    have hfields : c.members.map Prod.fst = c.kind.fields := by cases c <;> rfl
    rintro m hm htype
    exact hnames (hfields ▸ htype ▸ List.mem_map_of_mem hm)
  have hsteps : Steps readTaggedMember (none, []) (Value.memberTokens (("type", .text c.kind.name) :: c.members))
      (some c.kind, c.kept) := by
    refine .cons (fun text rest hlaid hrest => ?_) (steps_members (Connection.keeps_members hc) htypes [])
    obtain ⟨behind, hcolon, hbehind⟩ := hlaid.readColon
    have hkind := takes_readKind c.kind behind rest hbehind hrest
    rw [readTaggedMember, if_pos (beq_self_eq_true _)]
    simp only [Option.isSome_none, Bool.false_eq_true, if_false, bind, Except.bind, hcolon, hkind]
  obtain ⟨behind, htext, hbehind⟩ := hlaid.skipSpace_eq (by decide)
  have hmembers := readMembers_separated hsteps hbehind (Nat.lt_succ_self _)
  rw [readConnection, skipSpace_skipSpace, htext, List.nil_append]
  simp only [hmembers, Connection.ofMembers_kept hc]
  rfl

/-! ### Generators -/

theorem itemTokens_texts (texts : List Text) :
    Value.itemTokens (texts.map Value.text) = texts.map fun s => [jsonString s] := by
  induction texts with
  | nil => rfl
  | cons s texts ih =>
    rw [List.map_cons, List.map_cons, Value.itemTokens, ih]
    rfl

/-- A generator is read back. -/
theorem takes_readCommand (g : GeneratorCommand) : Takes readCommand g.value.tokens g := by
  intro text rest hlaid hrest
  have hargs : (Value.list (g.args.map Value.text)).tokens =
      ['['] :: (separated (g.args.map fun s => [jsonString s]) ++ [[']']]) := by
    rw [Value.tokens, itemTokens_texts]
  have hlookup : commandFields.lookup ("args" : Text) =
      some fun (g : PartialCommand) (s : Text) => (readTexts s).map fun x => ((g.1, x.1), x.2) := by
    have hother : (("args" : Text) == "command") = false := by decide +kernel
    rw [commandFields, List.lookup_cons, hother]
    exact List.lookup_cons_self
  have hnew : ([("command" : Text)].contains "args") = false := by decide +kernel
  have hsteps : Steps commandFields.readMember ([], (none, []))
      (Value.memberTokens [("command", .text g.command), ("args", .list (g.args.map Value.text))])
      (["args", "command"], (some g.command, g.args)) := by
    have hcommand := (takesItem_readText g.command).takes.map fun command => (some command, ([] : List Text))
    have hrest := (hargs ▸ takes_readTexts g.args).map fun args => (some g.command, args)
    exact Fields.steps_cons List.lookup_cons_self rfl hcommand (Fields.steps_cons hlookup hnew hrest (.nil _))
  rw [readCommand, Fields.takes_read hsteps text rest hlaid hrest]

/-! ### Configurations -/

namespace Config

/-- The ports of a configuration have sixteen bits. -/
def PortFits (c : Config) : Prop := ∀ connection ∈ c.database, connection.PortFits

theorem takes_read {c : Config} (hc : c.PortFits) : Takes (fields.read empty) c.value.tokens c := by
  have hlookup : fields.lookup ("generator" : Text) =
      some fun (c : Config) (s : Text) =>
        (readOptional readCommand s).map fun x => ({ c with generator := x.1 }, x.2) := by
    have hother : (("generator" : Text) == "database") = false := by decide +kernel
    rw [fields, List.lookup_cons, hother]
    exact List.lookup_cons_self
  have hnew : ([("database" : Text)].contains "generator") = false := by decide +kernel
  have hdatabase : Takes (readOptional readConnection) (Value.ofOption Connection.value c.database).tokens c.database :=
    takes_ofOption (by decide) (fun connection => Value.starts_object _) fun connection h =>
      takes_readConnection (hc connection h)
  have hgenerator : Takes (readOptional readCommand) (Value.ofOption GeneratorCommand.value c.generator).tokens
      c.generator :=
    takes_ofOption (by decide) (fun command => Value.starts_object _) fun command _ => takes_readCommand command
  have hsteps : Steps fields.readMember ([], empty)
      (Value.memberTokens [("database", .ofOption Connection.value c.database),
        ("generator", .ofOption GeneratorCommand.value c.generator)]) (["generator", "database"], c) := by
    have hfirst := hdatabase.map fun database => { empty with database }
    have hlater := hgenerator.map fun generator => { c with generator }
    exact Fields.steps_cons List.lookup_cons_self rfl hfirst (Fields.steps_cons hlookup hnew hlater (.nil _))
  exact Fields.takes_read hsteps

/-- A configuration is read from each text that writes its value. -/
theorem read_of_writtenAs {c : Config} (hc : c.PortFits) {text : Text} (h : c.value.WrittenAs text) :
    read text = .ok c := by
  obtain ⟨space, hlaid, hspace⟩ := h
  have hread := takes_read hc text space hlaid (delimited_of_space hspace)
  have hskip : fields.read empty (skipSpace text) = fields.read empty text := by
    rw [Fields.read, skipSpace_skipSpace, Fields.read]
  have hend : (skipSpace space).isEmpty = true := by
    rw [skipSpace, List.dropWhile_eq_nil_iff.mpr hspace]
    rfl
  rw [read, readDocument, ← hskip, hread]
  simp only [hend, if_true]

end Config

/-! ### What is read -/

namespace Connection

theorem portFits_of_portField {members : List (Text × Tree)} {port : Nat} (h : portField members = .ok port) :
    port < 65536 := by
  unfold portField at h
  split at h
  · cases h
  · cases h
    decide
  · split at h
    · split at h
      · cases h
        assumption
      · cases h
    · cases h
  · cases h

theorem portFits_of_ofMembers {kind : ConnectionKind} {members : List (Text × Tree)} {c : Connection}
    (h : ofMembers kind members = .ok c) : c.PortFits := by
  cases kind with
  | memory =>
    cases h
    trivial
  | file =>
    rw [ofMembers] at h
    split at h
    · cases h
      trivial
    · cases h
  | server =>
    obtain ⟨_, -, h⟩ := exists_of_bind_eq_ok h
    obtain ⟨_, -, h⟩ := exists_of_bind_eq_ok h
    obtain ⟨_, -, h⟩ := exists_of_bind_eq_ok h
    obtain ⟨_, -, h⟩ := exists_of_bind_eq_ok h
    obtain ⟨port, hport, h⟩ := exists_of_bind_eq_ok h
    obtain ⟨_, -, h⟩ := exists_of_bind_eq_ok h
    cases h
    exact portFits_of_portField hport

end Connection

/-- A connection is told by its members, in an object as in a list. -/
theorem portFits_of_readConnection {text rest : Text} {c : Connection} (h : readConnection text = .ok (c, rest)) :
    c.PortFits := by
  unfold readConnection at h
  split at h
  · split at h
    · cases h
    · cases h
    · obtain ⟨c', hc, heq⟩ := exists_of_map_eq_ok h
      cases heq
      exact Connection.portFits_of_ofMembers hc
  · obtain ⟨⟨more, _⟩, -, h⟩ := exists_of_bind_eq_ok h
    cases more with
    | false => cases h
    | true =>
      obtain ⟨_, -, h⟩ := exists_of_bind_eq_ok h
      obtain ⟨⟨items, _⟩, -, h⟩ := exists_of_bind_eq_ok h
      obtain ⟨c', hc, heq⟩ := exists_of_map_eq_ok h
      cases heq
      unfold Connection.ofItems at hc
      split at hc
      · exact Connection.portFits_of_ofMembers hc
      · cases hc
  · cases h

namespace Config

theorem portFits_of_read {text : Text} {c : Config} (h : read text = .ok c) : c.PortFits := by
  have hfields : ∀ field ∈ fields, Keeping PortFits field.2 := by
    refine List.forall_mem_cons.mpr ⟨?_, List.forall_mem_singleton.mpr ?_⟩
    · intro config text next rest _ hread
      obtain ⟨⟨database, _⟩, hdatabase, heq⟩ := exists_of_map_eq_ok hread
      cases heq
      intro connection hconnection
      obtain ⟨inside, hinside⟩ := mem_of_readOptional hdatabase hconnection
      exact portFits_of_readConnection hinside
    · intro config text next rest hconfig hread
      obtain ⟨⟨generator, _⟩, -, heq⟩ := exists_of_map_eq_ok hread
      cases heq
      exact hconfig
  unfold read readDocument at h
  split at h
  · cases h
  · rename_i config rest hread
    split at h
    · cases h
      exact Fields.read_keeping hfields empty text c rest nofun hread
    · cases h

/-- A configuration is read back from the text that is written for it, and from every other text that writes its value.
    So is each configuration that was read from any text. -/
theorem read_written :
    (∀ c : Config, c.PortFits → read c.write = .ok c ∧ ∀ text, c.value.WrittenAs text → read text = .ok c) ∧
      ∀ (text : Text) (c : Config), read text = .ok c →
        read c.write = .ok c ∧ ∀ text', c.value.WrittenAs text' → read text' = .ok c := by
  have hfits : ∀ c : Config, c.PortFits →
      read c.write = .ok c ∧ ∀ text, c.value.WrittenAs text → read text = .ok c := fun c hc =>
    ⟨read_of_writtenAs hc (c.value.writtenAs_pretty 0), fun text h => read_of_writtenAs hc h⟩
  exact ⟨hfits, fun text c h => hfits c (portFits_of_read h)⟩

/-- A server of which some settings are absent and others hold quotes, backslashes, control characters and characters
    beyond ASCII, and a generator with an empty argument. -/
def manyFields : Config where
  database := some (.server ⟨some "a \"b\" \\c\n".toList, none, some [], some "postgres".toList, 65535,
    some "\x01\x1fß\t€".toList⟩)
  generator := some ⟨"llm".toList, ["-m".toList, []]⟩

theorem read_written_manyFields :
    manyFields.PortFits ∧ read manyFields.write = .ok manyFields ∧
      read manyFields.value.tokens.flatten = .ok manyFields := by
  have hports : manyFields.PortFits := by
    rintro connection ⟨⟩
    exact (by decide : 65535 < 65536)
  obtain ⟨hwrite, hwritten⟩ := read_written.1 manyFields hports
  exact ⟨hports, hwrite, hwritten _ manyFields.value.writtenAs_flatten⟩

end Config

end Schemata
