import Doenerstag.Go.Strings
import Doenerstag.Lib.PgLexer
import Doenerstag.Lib.Utf8
import Mathlib.Data.List.TakeWhile

/-!
# Provisioning the database (`internal/install/database.go`)

Names and passwords that an operator has typed are written into the statements that create roles, the database
and the privileges. They are bytes here, as they are in the source.

* `Provisioner.statements` — the statements, in their order. `Provisioner.templates` — what each is made of.
* `statements_eq` — the statements are the templates, written out.
* `statements_lex` — **each has the tokens of its template, with what was typed in the places for it**: a password
  as it is, a name as far as PostgreSQL keeps one.
-/

namespace Doenerstag

open PgLexer
open Utf8 (literal literal_append)

/-- `Identity` -/
structure Identity where
  user : List UInt8
  password : List UInt8

/-- `Provisioner` -/
structure Provisioner where
  admin : Identity
  runtime : Identity
  database : List UInt8

/-! ## The statements -/

def quoteIdentifier (name : List UInt8) : List UInt8 :=
  literal "\"" ++ replaceAll name (literal "\"") (literal "\"\"") ++ literal "\""

def quoteLiteral (value : List UInt8) : List UInt8 :=
  literal "'" ++ replaceAll value (literal "'") (literal "''") ++ literal "'"

/-- `ensureRole`, the role being there or not -/
def ensureRole (role : Identity) (createDB there : Bool) : List UInt8 :=
  let verb := if there then "ALTER" else "CREATE"
  literal verb ++ literal " ROLE " ++ quoteIdentifier role.user ++ literal " LOGIN PASSWORD " ++
    quoteLiteral role.password ++
    if createDB && !there then literal " NOCREATEDB NOSUPERUSER NOCREATEROLE" else []

namespace Provisioner

variable (p : Provisioner)

/-- `ensureDatabase`, the database being there or not -/
def ensureDatabase (there : Bool) : List UInt8 :=
  if there then
    literal "ALTER DATABASE " ++ quoteIdentifier p.database ++ literal " OWNER TO " ++ quoteIdentifier p.admin.user
  else
    literal "CREATE DATABASE " ++ quoteIdentifier p.database ++ literal " OWNER " ++ quoteIdentifier p.admin.user ++
      literal " ENCODING 'UTF8'"

def grantRuntimePrivileges : List (List UInt8) :=
  let runtime := quoteIdentifier p.runtime.user
  let database := quoteIdentifier p.database
  [literal "GRANT CONNECT ON DATABASE " ++ database ++ literal " TO " ++ runtime,
    literal "GRANT USAGE ON SCHEMA public TO " ++ runtime,
    literal "GRANT SELECT, INSERT, UPDATE, DELETE ON ALL TABLES IN SCHEMA public TO " ++ runtime,
    literal "ALTER DEFAULT PRIVILEGES IN SCHEMA public GRANT SELECT, INSERT, UPDATE, DELETE ON TABLES TO " ++ runtime,
    literal "REVOKE CREATE ON SCHEMA public FROM " ++ runtime]

/-- The statements of `Provision`, the two roles and the database being there or not -/
def statements (adminThere runtimeThere databaseThere : Bool) : List (List UInt8) :=
  ensureRole p.admin true adminThere :: ensureRole p.runtime false runtimeThere ::
    p.ensureDatabase databaseThere :: p.grantRuntimePrivileges

end Provisioner

/-! ## The templates -/

/-- Key words and names that are written in a statement -/
def keywords (words : List String) : List Piece := words.map fun w => .word (literal w)

/-- `SELECT, INSERT, UPDATE, DELETE` -/
def rowPrivileges : List Piece :=
  keywords ["SELECT"] ++ [.comma] ++ keywords ["INSERT"] ++ [.comma] ++ keywords ["UPDATE"] ++ [.comma] ++
    keywords ["DELETE"]

def roleTemplate (role : Identity) (createDB there : Bool) : List Piece :=
  keywords [if there then "ALTER" else "CREATE", "ROLE"] ++ [.identifier role.user] ++
    keywords ["LOGIN", "PASSWORD"] ++ [.string role.password] ++
    if createDB && !there then keywords ["NOCREATEDB", "NOSUPERUSER", "NOCREATEROLE"] else []

namespace Provisioner

variable (p : Provisioner)

def databaseTemplate (there : Bool) : List Piece :=
  if there then
    keywords ["ALTER", "DATABASE"] ++ [.identifier p.database] ++ keywords ["OWNER", "TO"] ++
      [.identifier p.admin.user]
  else
    keywords ["CREATE", "DATABASE"] ++ [.identifier p.database] ++ keywords ["OWNER"] ++
      [.identifier p.admin.user] ++ keywords ["ENCODING"] ++ [.string (literal "UTF8")]

def grantTemplates : List (List Piece) :=
  let runtime : List Piece := [.identifier p.runtime.user]
  [keywords ["GRANT", "CONNECT", "ON", "DATABASE"] ++ [.identifier p.database] ++ keywords ["TO"] ++ runtime,
    keywords ["GRANT", "USAGE", "ON", "SCHEMA", "public", "TO"] ++ runtime,
    keywords ["GRANT"] ++ rowPrivileges ++ keywords ["ON", "ALL", "TABLES", "IN", "SCHEMA", "public", "TO"] ++ runtime,
    keywords ["ALTER", "DEFAULT", "PRIVILEGES", "IN", "SCHEMA", "public", "GRANT"] ++ rowPrivileges ++
      keywords ["ON", "TABLES", "TO"] ++ runtime,
    keywords ["REVOKE", "CREATE", "ON", "SCHEMA", "public", "FROM"] ++ runtime]

/-- What each of the statements is made of -/
def templates (adminThere runtimeThere databaseThere : Bool) : List (List Piece) :=
  roleTemplate p.admin true adminThere :: roleTemplate p.runtime false runtimeThere ::
    p.databaseTemplate databaseThere :: p.grantTemplates

end Provisioner

/-! ## What the server reads -/

/-- A statement is sent with a NUL at its end, and ends at the first one. -/
def received (statement : List UInt8) : List UInt8 := statement.takeWhile (· != 0)

theorem quoteIdentifier_eq (name : List UInt8) : quoteIdentifier name = (Piece.identifier name).text := by
  have hone : literal "\"" = [dquote] := by decide
  have htwo : literal "\"\"" = [dquote, dquote] := by decide
  unfold quoteIdentifier
  rw [htwo, hone, replaceAll_singleton]
  rfl

theorem quoteLiteral_eq (value : List UInt8) : quoteLiteral value = (Piece.string value).text := by
  have hone : literal "'" = [squote] := by decide
  have htwo : literal "''" = [squote, squote] := by decide
  unfold quoteLiteral
  rw [htwo, hone, replaceAll_singleton]
  rfl

/-! ## The statements are the templates -/

/-- A statement is put together from the left, and its pieces from the right. -/
theorem render_keywords_append {words : List String} (hwords : words ≠ []) (ps : List Piece) :
    render (keywords words ++ ps) = render (keywords words) ++ spaced ps :=
  render_append (by simpa [keywords] using hwords) ps

theorem ensureRole_eq (role : Identity) (createDB there : Bool) :
    ensureRole role createDB there = render (roleTemplate role createDB there) := by
  have hverb : literal (if there then "ALTER" else "CREATE") ++ literal " ROLE " =
      render (keywords [if there then "ALTER" else "CREATE", "ROLE"]) ++ [blank] := by
    cases there
    · decide
    · decide
  have hpassword : literal " LOGIN PASSWORD " = spaced (keywords ["LOGIN", "PASSWORD"]) ++ [blank] := by decide
  have hoptions : literal " NOCREATEDB NOSUPERUSER NOCREATEROLE" =
      spaced (keywords ["NOCREATEDB", "NOSUPERUSER", "NOCREATEROLE"]) := by decide
  unfold ensureRole roleTemplate
  dsimp only
  rw [hverb, hpassword, hoptions, quoteIdentifier_eq, quoteLiteral_eq]
  simp only [List.append_assoc, List.cons_append, List.nil_append, render_keywords_append (List.cons_ne_nil _ _),
    spaced_append, spaced_identifier, spaced_string, apply_ite spaced, spaced_nil]

theorem Provisioner.ensureDatabase_eq (p : Provisioner) (there : Bool) :
    p.ensureDatabase there = render (p.databaseTemplate there) := by
  have halter : literal "ALTER DATABASE " = render (keywords ["ALTER", "DATABASE"]) ++ [blank] := by decide
  have hownerTo : literal " OWNER TO " = spaced (keywords ["OWNER", "TO"]) ++ [blank] := by decide
  have hcreate : literal "CREATE DATABASE " = render (keywords ["CREATE", "DATABASE"]) ++ [blank] := by decide
  have howner : literal " OWNER " = spaced (keywords ["OWNER"]) ++ [blank] := by decide
  have hencoding : literal " ENCODING 'UTF8'" = spaced (keywords ["ENCODING"] ++ [.string (literal "UTF8")]) := by
    decide
  unfold ensureDatabase databaseTemplate
  split_ifs
  · rw [halter, hownerTo, quoteIdentifier_eq, quoteIdentifier_eq]
    simp only [List.append_assoc, List.cons_append, List.nil_append, render_keywords_append (List.cons_ne_nil _ _),
      spaced_append, spaced_identifier, spaced_nil, List.append_nil]
  · rw [hcreate, howner, hencoding, quoteIdentifier_eq, quoteIdentifier_eq]
    simp only [List.append_assoc, List.cons_append, List.nil_append, render_keywords_append (List.cons_ne_nil _ _),
      spaced_append, spaced_identifier]

/-- What is granted ends with the name of the role. -/
theorem grant_eq {words : List String} (hwords : words ≠ []) {fixed : List Piece} {text : List UInt8}
    (htext : text = render (keywords words ++ fixed) ++ [blank]) (name : List UInt8) :
    text ++ quoteIdentifier name = render (keywords words ++ fixed ++ [.identifier name]) := by
  rw [htext, quoteIdentifier_eq, List.append_assoc, List.append_assoc, render_keywords_append hwords,
    render_keywords_append hwords, spaced_append, spaced_identifier]
  simp [spaced]

theorem Provisioner.grantRuntimePrivileges_eq (p : Provisioner) :
    p.grantRuntimePrivileges = p.grantTemplates.map render := by
  have hconnect : literal "GRANT CONNECT ON DATABASE " =
      render (keywords ["GRANT", "CONNECT", "ON", "DATABASE"]) ++ [blank] := by decide
  have hto : literal " TO " = spaced (keywords ["TO"]) ++ [blank] := by decide
  have hdatabase : literal "GRANT CONNECT ON DATABASE " ++ quoteIdentifier p.database ++ literal " TO " =
      render (keywords ["GRANT", "CONNECT", "ON", "DATABASE"] ++ ([.identifier p.database] ++ keywords ["TO"])) ++
        [blank] := by
    rw [hconnect, hto, quoteIdentifier_eq]
    simp only [List.append_assoc, List.cons_append, List.nil_append, render_keywords_append (List.cons_ne_nil _ _),
      spaced_identifier]
  have husage : literal "GRANT USAGE ON SCHEMA public TO " =
      render (keywords ["GRANT", "USAGE", "ON", "SCHEMA", "public", "TO"] ++ []) ++ [blank] := by decide
  have hrows : literal "GRANT SELECT, INSERT, UPDATE, DELETE ON ALL TABLES IN SCHEMA public TO " =
      render (keywords ["GRANT"] ++
        (rowPrivileges ++ keywords ["ON", "ALL", "TABLES", "IN", "SCHEMA", "public", "TO"])) ++ [blank] := by
    decide +kernel
  have hdefault : literal
      "ALTER DEFAULT PRIVILEGES IN SCHEMA public GRANT SELECT, INSERT, UPDATE, DELETE ON TABLES TO " =
      render (keywords ["ALTER", "DEFAULT", "PRIVILEGES", "IN", "SCHEMA", "public", "GRANT"] ++
        (rowPrivileges ++ keywords ["ON", "TABLES", "TO"])) ++ [blank] := by
    decide +kernel
  have hrevoke : literal "REVOKE CREATE ON SCHEMA public FROM " =
      render (keywords ["REVOKE", "CREATE", "ON", "SCHEMA", "public", "FROM"] ++ []) ++ [blank] := by decide
  unfold grantRuntimePrivileges grantTemplates
  dsimp only
  rw [grant_eq (List.cons_ne_nil _ _) hdatabase, grant_eq (List.cons_ne_nil _ _) husage,
    grant_eq (List.cons_ne_nil _ _) hrows, grant_eq (List.cons_ne_nil _ _) hdefault,
    grant_eq (List.cons_ne_nil _ _) hrevoke]
  simp only [List.map_cons, List.map_nil, List.append_assoc, List.append_nil]

theorem Provisioner.statements_eq (p : Provisioner) (adminThere runtimeThere databaseThere : Bool) :
    p.statements adminThere runtimeThere databaseThere =
      (p.templates adminThere runtimeThere databaseThere).map render := by
  unfold statements templates
  rw [ensureRole_eq, ensureRole_eq, ensureDatabase_eq, grantRuntimePrivileges_eq]
  rfl

/-! ## Their tokens -/

/-- What an operator can have typed: names that are not empty, and nothing with a NUL -/
structure Provisioner.Typed (p : Provisioner) : Prop where
  admin : p.admin.user ≠ [] ∧ 0 ∉ p.admin.user
  adminPassword : 0 ∉ p.admin.password
  runtime : p.runtime.user ≠ [] ∧ 0 ∉ p.runtime.user
  runtimePassword : 0 ∉ p.runtime.password
  database : p.database ≠ [] ∧ 0 ∉ p.database

/-- A piece that can be sent -/
structure Sendable (piece : Piece) : Prop where
  valid : piece.Valid
  noNul : 0 ∉ piece.text

theorem sendable_keywords {words : List String} (h : ∀ w ∈ words, isWord (literal w) = true ∧ 0 ∉ literal w) :
    ∀ piece ∈ keywords words, Sendable piece := by
  intro piece hpiece
  obtain ⟨w, hw, rfl⟩ := List.mem_map.mp hpiece
  exact ⟨(h w hw).1, (h w hw).2⟩

theorem not_mem_quoted {q : UInt8} (hq : 0 ≠ q) {s : List UInt8} (hs : 0 ∉ s) : 0 ∉ q :: (doubled q s ++ [q]) := by
  rw [List.mem_cons, List.mem_append, List.mem_singleton]
  rintro (h | h | h)
  · exact hq h
  · exact hs (mem_doubled h)
  · exact hq h

theorem sendable_identifier {name : List UInt8} (h : name ≠ [] ∧ 0 ∉ name) : Sendable (.identifier name) where
  valid := h.1
  noNul := not_mem_quoted (by decide) h.2

theorem sendable_string {value : List UInt8} (h : 0 ∉ value) : Sendable (.string value) where
  valid := trivial
  noNul := not_mem_quoted (by decide) h

theorem sendable_rowPrivileges : ∀ piece ∈ rowPrivileges, Sendable piece := by
  have hcomma : Sendable .comma := ⟨trivial, by decide⟩
  simp only [rowPrivileges, List.forall_mem_append, List.forall_mem_singleton]
  exact ⟨⟨⟨⟨⟨⟨sendable_keywords (by decide), hcomma⟩, sendable_keywords (by decide)⟩, hcomma⟩,
    sendable_keywords (by decide)⟩, hcomma⟩, sendable_keywords (by decide)⟩

theorem sendable_roleTemplate {role : Identity} (huser : role.user ≠ [] ∧ 0 ∉ role.user) (hpassword : 0 ∉ role.password)
    (createDB there : Bool) : ∀ piece ∈ roleTemplate role createDB there, Sendable piece := by
  have hverb : ∀ piece ∈ keywords [if there then "ALTER" else "CREATE", "ROLE"], Sendable piece := by
    cases there
    · exact sendable_keywords (by decide)
    · exact sendable_keywords (by decide)
  have hoptions : ∀ piece ∈ if createDB && !there then keywords ["NOCREATEDB", "NOSUPERUSER", "NOCREATEROLE"] else [],
      Sendable piece := by
    split_ifs
    · exact sendable_keywords (by decide)
    · exact List.forall_mem_nil _
  simp only [roleTemplate, List.forall_mem_append, List.forall_mem_singleton]
  exact ⟨⟨⟨⟨hverb, sendable_identifier huser⟩, sendable_keywords (by decide)⟩, sendable_string hpassword⟩, hoptions⟩

namespace Provisioner.Typed

variable {p : Provisioner} (hp : p.Typed)
include hp

theorem sendable_databaseTemplate (there : Bool) : ∀ piece ∈ p.databaseTemplate there, Sendable piece := by
  have hdatabase := sendable_identifier hp.database
  have hadmin := sendable_identifier hp.admin
  unfold databaseTemplate
  split_ifs
  · simp only [List.forall_mem_append, List.forall_mem_singleton]
    exact ⟨⟨⟨sendable_keywords (by decide), hdatabase⟩, sendable_keywords (by decide)⟩, hadmin⟩
  · simp only [List.forall_mem_append, List.forall_mem_singleton]
    exact ⟨⟨⟨⟨⟨sendable_keywords (by decide), hdatabase⟩, sendable_keywords (by decide)⟩, hadmin⟩,
      sendable_keywords (by decide)⟩, sendable_string (by decide)⟩

theorem sendable_grantTemplates : ∀ template ∈ p.grantTemplates, ∀ piece ∈ template, Sendable piece := by
  have hdatabase : Sendable (.identifier p.database) ∧ ∀ piece ∈ ([] : List Piece), Sendable piece :=
    ⟨sendable_identifier hp.database, List.forall_mem_nil _⟩
  have hruntime : Sendable (.identifier p.runtime.user) ∧ ∀ piece ∈ ([] : List Piece), Sendable piece :=
    ⟨sendable_identifier hp.runtime, List.forall_mem_nil _⟩
  simp only [grantTemplates, List.forall_mem_cons, List.forall_mem_append]
  exact ⟨⟨⟨⟨sendable_keywords (by decide), hdatabase⟩, sendable_keywords (by decide)⟩, hruntime⟩,
    ⟨sendable_keywords (by decide), hruntime⟩,
    ⟨⟨⟨sendable_keywords (by decide), sendable_rowPrivileges⟩, sendable_keywords (by decide)⟩, hruntime⟩,
    ⟨⟨⟨sendable_keywords (by decide), sendable_rowPrivileges⟩, sendable_keywords (by decide)⟩, hruntime⟩,
    ⟨sendable_keywords (by decide), hruntime⟩, List.forall_mem_nil _⟩

theorem sendable_templates (adminThere runtimeThere databaseThere : Bool) :
    ∀ template ∈ p.templates adminThere runtimeThere databaseThere, ∀ piece ∈ template, Sendable piece := by
  simp only [templates, List.forall_mem_cons]
  exact ⟨sendable_roleTemplate hp.admin hp.adminPassword _ _, sendable_roleTemplate hp.runtime hp.runtimePassword _ _,
    hp.sendable_databaseTemplate _, hp.sendable_grantTemplates⟩

end Provisioner.Typed

/-- A statement that can be sent is read as its pieces. -/
theorem lexes_received (names : Clip) {template : List Piece} (h : ∀ piece ∈ template, Sendable piece) :
    Lexes names (received (render template)) (template.map (Piece.token names)) := by
  have hnul : 0 ∉ render template := not_mem_render (by decide) fun piece hpiece => (h piece hpiece).noNul
  have hall : received (render template) = render template :=
    List.takeWhile_eq_self_iff.mpr fun b hb => bne_iff_ne.mpr fun hzero => hnul (hzero ▸ hb)
  rw [hall]
  exact lexes_render fun piece hpiece => (h piece hpiece).valid

/-- A name in quotes is one token, whatever follows that is no quote. -/
theorem token_quoteIdentifier (names : Clip) {name rest : List UInt8} (hname : name ≠ [])
    (hrest : rest.head? ≠ some dquote) :
    token names (quoteIdentifier name ++ rest) = some (.quotedIdentifier (names.clip name), rest) := by
  rw [quoteIdentifier_eq, token_identifier hname hrest]

/-- A password in quotes is one token, whatever follows with which no string goes on. -/
theorem token_quoteLiteral (names : Clip) {value rest : List UInt8} (hrest : rest.head? ≠ some squote)
    (hends : continuation false false rest = none) :
    token names (quoteLiteral value ++ rest) = some (.string value, rest) := by
  rw [quoteLiteral_eq, token_string hrest hends]

/-- **Nothing that was typed breaks out of a statement.** -/
theorem statements_lex (names : Clip) (p : Provisioner) (hp : p.Typed) :
    (∀ name rest : List UInt8, name ≠ [] → rest.head? ≠ some dquote →
      token names (quoteIdentifier name ++ rest) = some (.quotedIdentifier (names.clip name), rest)) ∧
    (∀ value rest : List UInt8, rest.head? ≠ some squote → continuation false false rest = none →
      token names (quoteLiteral value ++ rest) = some (.string value, rest)) ∧
    ∀ adminThere runtimeThere databaseThere : Bool,
      List.Forall₂ (fun statement template => Lexes names (received statement) (template.map (Piece.token names)))
        (p.statements adminThere runtimeThere databaseThere) (p.templates adminThere runtimeThere databaseThere) := by
  refine ⟨fun name rest hname hrest => token_quoteIdentifier names hname hrest,
    fun value rest hrest hends => token_quoteLiteral names hrest hends, fun adminThere runtimeThere databaseThere => ?_⟩
  rw [Provisioner.statements_eq, List.forall₂_map_left_iff, List.forall₂_same]
  exact fun template htemplate => lexes_received names
    (hp.sendable_templates adminThere runtimeThere databaseThere template htemplate)

/-- A database whose name would drop another one, and a password with quotes. -/
def trickyProvisioner : Provisioner :=
  { admin := { user := literal "admin", password := literal "it's \\ secret" }
    runtime := { user := literal "döner", password := literal "" }
    database := literal "x\"; DROP DATABASE y; --" }

theorem statements_lex_tricky : Lexes .bytes (received (trickyProvisioner.ensureDatabase true))
    [.word (literal "alter"), .word (literal "database"), .quotedIdentifier (literal "x\"; DROP DATABASE y; --"),
      .word (literal "owner"), .word (literal "to"), .quotedIdentifier (literal "admin")] := by
  have htyped : trickyProvisioner.Typed := by constructor <;> decide
  have hall := (statements_lex .bytes trickyProvisioner htyped).2.2 true true true
  have hdatabase := (List.forall₂_cons.mp (List.forall₂_cons.mp (List.forall₂_cons.mp hall).2).2).1
  have htokens : (trickyProvisioner.databaseTemplate true).map (Piece.token .bytes) =
      [.word (literal "alter"), .word (literal "database"), .quotedIdentifier (literal "x\"; DROP DATABASE y; --"),
        .word (literal "owner"), .word (literal "to"), .quotedIdentifier (literal "admin")] := by
    decide +kernel
  exact htokens ▸ hdatabase

/-- Of a name of 64 bytes PostgreSQL keeps 63. -/
theorem quoteIdentifier_not : ¬ ∀ (names : Clip) (name : List UInt8), name ≠ [] → 0 ∉ name →
    token names (quoteIdentifier name) = some (.quotedIdentifier name, []) := by
  intro hevery
  have hne : List.replicate 64 (97 : UInt8) ≠ [] := by decide
  have htoken := hevery .bytes (List.replicate 64 97) hne (by decide)
  have hclipped : token .bytes (quoteIdentifier (List.replicate 64 97) ++ []) = _ :=
    token_quoteIdentifier .bytes hne (by decide)
  rw [List.append_nil, htoken] at hclipped
  have hname : List.replicate 64 (97 : UInt8) = Clip.bytes.clip (List.replicate 64 97) := by
    simpa using hclipped
  have hbound := Clip.bytes.bounded (List.replicate 64 97)
  rw [← hname, List.length_replicate] at hbound
  omega

end Doenerstag
