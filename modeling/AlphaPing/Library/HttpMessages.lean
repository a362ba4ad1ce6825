import AlphaPing.Library.Octets

/-!
# Responses of HTTP/1.1

A response as a sender may write it: a status line, header fields and a body. The body follows as
it is, or in chunks, which carry extensions and may be followed by trailers. Blanks may stand
around the value of a field and before the extension of a chunk, and names and codings may be
written in letters of either case.

The text of an extension is any text here; nothing depends on how it is divided into names and
values.
-/

namespace AlphaPing.Library.HttpMessages

open Octets

def crlf : List UInt8 := [13, 10]

/-! ## Octets -/

def isBlank (octet : UInt8) : Bool := octet == 32 || octet == 9

/-- A visible character, a blank or an octet beyond ASCII. -/
def isText (octet : UInt8) : Bool := isBlank octet || (32 < octet && octet != 127)

def isToken (octet : UInt8) : Bool :=
  (48 ≤ octet && octet ≤ 57) || (65 ≤ octet && octet ≤ 90) || (97 ≤ octet && octet ≤ 122) ||
    octet ∈ [33, 35, 36, 37, 38, 39, 42, 43, 45, 46, 94, 95, 96, 124, 126]

/-- The value of a hexadecimal digit. -/
def hexDigit (character : Char) : Option ℕ :=
  let code := character.toNat
  if 48 ≤ code ∧ code ≤ 57 then some (code - 48)
  else if 97 ≤ code ∧ code ≤ 102 then some (code - 87)
  else if 65 ≤ code ∧ code ≤ 70 then some (code - 55)
  else none

def isHexDigit (octet : UInt8) : Bool :=
  octet < 128 && (hexDigit (Char.ofNat octet.toNat)).isSome

def hexValue (digits : List UInt8) : ℕ :=
  (digits.map fun octet ↦ (hexDigit (Char.ofNat octet.toNat)).getD 0).foldl
    (fun value digit ↦ 16 * value + digit) 0

def isDigit (octet : UInt8) : Bool := 48 ≤ octet && octet ≤ 57

def decimalValue (digits : List UInt8) : ℕ :=
  digits.foldl (fun value octet ↦ 10 * value + (octet.toNat - 48)) 0

/-! ## Fields -/

structure Field where
  name : List UInt8
  before : List UInt8
  value : List UInt8
  after : List UInt8
  name_filled : name ≠ []
  name_token : name.all isToken
  before_blank : before.all isBlank
  value_text : value.all isText
  value_first : value.head?.all fun octet ↦ !isBlank octet
  value_last : value.getLast?.all fun octet ↦ !isBlank octet
  after_blank : after.all isBlank

def Field.line (field : Field) : List UInt8 :=
  field.name ++ [58] ++ field.before ++ field.value ++ field.after

def Field.named (field : Field) (name : String) : Bool :=
  eqIgnoreAsciiCase field.name (ascii name)

/-! ## Bodies -/

/-- The line before a chunk: a size and perhaps an extension, which blanks may precede. -/
structure SizeLine where
  digits : List UInt8
  extension : Option (List UInt8 × List UInt8)
  digits_filled : digits ≠ []
  digits_hex : digits.all isHexDigit
  extension_text : extension.all fun (blanks, text) ↦ blanks.all isBlank && text.all isText

def SizeLine.line (size : SizeLine) : List UInt8 :=
  size.digits ++ (size.extension.map fun (blanks, text) ↦ blanks ++ [59] ++ text).getD []

structure Chunk where
  size : SizeLine
  data : List UInt8
  data_filled : data ≠ []
  size_eq : hexValue size.digits = data.length

def Chunk.octets (chunk : Chunk) : List UInt8 :=
  chunk.size.line ++ crlf ++ chunk.data ++ crlf

structure ChunkedBody where
  chunks : List Chunk
  last : SizeLine
  trailers : List Field
  last_zero : hexValue last.digits = 0

def fieldLines (fields : List Field) : List UInt8 :=
  fields.flatMap fun field ↦ field.line ++ crlf

def ChunkedBody.octets (body : ChunkedBody) : List UInt8 :=
  body.chunks.flatMap Chunk.octets ++ body.last.line ++ crlf ++ fieldLines body.trailers ++ crlf

def ChunkedBody.content (body : ChunkedBody) : List UInt8 := body.chunks.flatMap Chunk.data

inductive Body where
  | plain (octets : List UInt8)
  | chunked (body : ChunkedBody)

def Body.octets : Body → List UInt8
  | plain octets => octets
  | chunked body => body.octets

/-- What the body stands for. -/
def Body.content : Body → List UInt8
  | plain octets => octets
  | chunked body => body.content

/-! ## Responses -/

/-- The fields tell how the body is sent: in chunks, with its length, or until the connection is
closed. -/
def Framed (fields : List Field) : Body → Prop
  | .plain octets =>
    (∀ field ∈ fields, field.named "transfer-encoding" = false) ∧
      ∀ field ∈ fields, field.named "content-length" → field.value ≠ [] ∧
        field.value.all isDigit ∧ decimalValue field.value = octets.length
  | .chunked _ =>
    (∃ field, fields.filter (Field.named · "transfer-encoding") = [field] ∧
      eqIgnoreAsciiCase field.value (ascii "chunked")) ∧
    ∀ field ∈ fields, field.named "content-length" = false

structure Response where
  status : ℕ
  reason : List UInt8
  fields : List Field
  body : Body
  status_lt : status < 1000
  reason_text : reason.all isText
  framed : Framed fields body

/-- The three digits of a status. -/
def statusDigits (status : ℕ) : List UInt8 :=
  [UInt8.ofNat (48 + status / 100), UInt8.ofNat (48 + status / 10 % 10),
    UInt8.ofNat (48 + status % 10)]

def Response.statusLine (response : Response) : List UInt8 :=
  ascii "HTTP/1.1 " ++ statusDigits response.status ++ [32] ++ response.reason

def Response.octets (response : Response) : List UInt8 :=
  response.statusLine ++ crlf ++ fieldLines response.fields ++ crlf ++ response.body.octets

/-- The lines before the body, without the separator behind the last one. -/
def Response.head (response : Response) : List UInt8 :=
  response.statusLine ++ (response.fields.map Field.line).flatMap (crlf ++ ·)

/-! ## Lines -/

variable {octet : UInt8} (response : Response)

theorem mem_crlf : octet ∈ crlf ↔ octet = 13 ∨ octet = 10 := by
  simp [crlf]

theorem not_mem_of_all {octets : List UInt8} {kind : UInt8 → Bool} (octet : UInt8)
    (h : octets.all kind) (hkind : kind octet = false) : octet ∉ octets := by
  intro hmem
  rw [List.all_eq_true.mp h octet hmem] at hkind
  cases hkind

theorem Field.not_mem_line (field : Field) (h : octet ∈ crlf) : octet ∉ field.line := by
  have hkinds : isToken octet = false ∧ isBlank octet = false ∧ isText octet = false ∧
      octet ≠ 58 := by
    rcases mem_crlf.mp h with rfl | rfl <;> decide
  have hname := not_mem_of_all octet field.name_token hkinds.1
  have hbefore := not_mem_of_all octet field.before_blank hkinds.2.1
  have hvalue := not_mem_of_all octet field.value_text hkinds.2.2.1
  have hafter := not_mem_of_all octet field.after_blank hkinds.2.1
  simp [Field.line, hname, hbefore, hvalue, hafter, hkinds.2.2.2]

theorem Field.line_ne_nil (field : Field) : field.line ≠ [] := by
  simp [Field.line]

theorem SizeLine.line_none {size : SizeLine} (h : size.extension = none) :
    size.line = size.digits := by
  rw [SizeLine.line, h]
  exact List.append_nil _

theorem SizeLine.line_some {size : SizeLine} {blanks text : List UInt8}
    (h : size.extension = some (blanks, text)) :
    size.line = size.digits ++ (blanks ++ [59] ++ text) := by
  rw [SizeLine.line, h]
  rfl

theorem SizeLine.return_not_mem (size : SizeLine) : 13 ∉ size.line := by
  have hdigits := not_mem_of_all 13 size.digits_hex (by decide)
  cases hextension : size.extension with
  | none => rwa [SizeLine.line_none hextension]
  | some extension =>
    obtain ⟨blanks, text⟩ := extension
    have htext := size.extension_text
    rw [hextension, Option.all_some, Bool.and_eq_true] at htext
    have hblanks := not_mem_of_all 13 htext.1 (by decide)
    have htext := not_mem_of_all 13 htext.2 (by decide)
    simp [SizeLine.line_some hextension, hdigits, hblanks, htext]

theorem exists_digit {status : ℕ} (h : status < 1000) (hoctet : octet ∈ statusDigits status) :
    ∃ digit < 10, octet = UInt8.ofNat (48 + digit) := by
  simp only [statusDigits, List.mem_cons, List.not_mem_nil, or_false] at hoctet
  rcases hoctet with rfl | rfl | rfl
  · exact ⟨_, by omega, rfl⟩
  · exact ⟨_, by omega, rfl⟩
  · exact ⟨_, by omega, rfl⟩

theorem isDigit_statusDigits {status : ℕ} (h : status < 1000) :
    (statusDigits status).all isDigit := by
  apply List.all_eq_true.mpr
  intro octet hoctet
  obtain ⟨digit, hdigit, rfl⟩ := exists_digit h hoctet
  exact (by decide : ∀ digit < 10, isDigit (UInt8.ofNat (48 + digit))) digit hdigit

theorem Response.not_mem_statusLine (h : octet ∈ crlf) : octet ∉ response.statusLine := by
  have hkinds : octet ∉ ascii "HTTP/1.1 " ∧ isDigit octet = false ∧ isText octet = false ∧
      octet ≠ 32 := by
    rcases mem_crlf.mp h with rfl | rfl <;> decide
  have hstatus := not_mem_of_all octet (isDigit_statusDigits response.status_lt) hkinds.2.1
  have hreason := not_mem_of_all octet response.reason_text hkinds.2.2.1
  simp [Response.statusLine, hkinds.1, hstatus, hreason, hkinds.2.2.2]

theorem Response.octets_eq :
    response.octets = response.head ++ (crlf ++ crlf) ++ response.body.octets := by
  have hfields (fields : List Field) :
      crlf ++ fieldLines fields = (fields.map Field.line).flatMap (crlf ++ ·) ++ crlf := by
    induction fields with
    | nil => simp [fieldLines]
    | cons field fields ih =>
      calc
        _ = crlf ++ field.line ++ (crlf ++ fieldLines fields) := by simp [fieldLines]
        _ = _ := by
          rw [ih]
          simp
  calc
    _ = response.statusLine ++ (crlf ++ fieldLines response.fields) ++ crlf ++
          response.body.octets := by simp [Response.octets]
    _ = _ := by
      rw [hfields]
      simp [Response.head]

theorem Response.position_head :
    position (crlf ++ crlf) response.octets = some response.head.length := by
  have hlines : ∀ line ∈ response.fields.map Field.line, 13 ∉ line ∧ line ≠ [] := by
    intro line hline
    obtain ⟨field, -, rfl⟩ := List.mem_map.mp hline
    exact ⟨field.not_mem_line (by decide), field.line_ne_nil⟩
  rw [Response.octets_eq]
  exact @position_lines UInt8 _ 13 10 (by decide) _ _ response.body.octets
    (response.not_mem_statusLine (by decide)) hlines

end AlphaPing.Library.HttpMessages
