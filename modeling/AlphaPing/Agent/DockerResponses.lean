import AlphaPing.Agent.DockerHttp

/-!
# What is read of a response

A response that is well formed is read as it was meant exactly if its reason is text, and its body,
if it is sent in chunks, is announced by the one spelling of the header field that is looked for,
with another field behind it, and has no blank before the extension of a chunk. Whatever comes from
the socket, the only thing that can go wrong beyond an error is the size of a chunk that is at the
very end of its range.
-/

namespace AlphaPing.Agent.DockerResponses

open Protocol Library.Octets Library.HttpMessages RuntimeAdapters DockerHttp

/-! ## Sizes -/

/-- The line before a chunk is one that the agent can read. -/
def Understood (size : SizeLine) : Prop :=
  ∀ blanks text, size.extension = some (blanks, text) → blanks = [] ∧ (fromUtf8 text).isSome

theorem lt_of_isHexDigit {octet : UInt8} (h : isHexDigit octet) : octet < 128 := by
  rw [isHexDigit, Bool.and_eq_true, decide_eq_true_eq] at h
  exact h.1

theorem lt_of_isBlank {octet : UInt8} (h : isBlank octet) : octet < 128 := by
  rw [isBlank, Bool.or_eq_true, beq_iff_eq, beq_iff_eq] at h
  rcases h with rfl | rfl <;> decide

def characters (octets : Bytes) : List Char := octets.map fun octet ↦ Char.ofNat octet.toNat

theorem isSome_hexDigit {digits : Bytes} (hhex : digits.all isHexDigit) :
    (characters digits).all fun character ↦ (hexDigit character).isSome := by
  rw [characters, List.all_map, List.all_eq_true]
  intro octet hoctet
  have hdigit := List.all_eq_true.mp hhex octet hoctet
  rw [isHexDigit, Bool.and_eq_true] at hdigit
  exact hdigit.2

theorem fromStrRadix16_digits {digits : Bytes} (hfilled : digits ≠ [])
    (hhex : digits.all isHexDigit) :
    fromStrRadix16 (characters digits) =
      if hexValue digits ≤ maxUsize then some (hexValue digits) else none := by
  have hsome := isSome_hexDigit hhex
  have hsign : (characters digits).head? ≠ some '+' := by
    intro hplus
    have hmem := List.mem_of_head? hplus
    exact absurd (List.all_eq_true.mp hsome _ hmem) (by decide)
  have hvalue : ((characters digits).map fun character ↦ (hexDigit character).getD 0).foldl
      (fun value digit ↦ 16 * value + digit) 0 = hexValue digits := by
    rw [characters, List.map_map]
    rfl
  have hcharacters : characters digits ≠ [] := by simpa [characters] using hfilled
  rw [fromStrRadix16, if_neg hsign, hvalue]
  simp only [hcharacters, hsome, ne_eq, not_false_eq_true, true_and]

theorem fromStrRadix16_blank {text : List Char} {blank : Char} (hblank : hexDigit blank = none)
    (hsign : blank ≠ '+') (h : blank ∈ text) : fromStrRadix16 text = none := by
  have hdigits : ¬ ((if text.head? = some '+' then text.tail else text).all
      fun character ↦ (hexDigit character).isSome) := by
    intro hall
    have hmem : blank ∈ if text.head? = some '+' then text.tail else text := by
      split
      · next hplus =>
        cases text with
        | nil => cases h
        | cons first rest =>
          obtain rfl := Option.some.inj hplus
          exact (List.mem_cons.mp h).resolve_left hsign
      · exact h
    have hsome := List.all_eq_true.mp hall blank hmem
    rw [hblank] at hsome
    cases hsome
  rw [fromStrRadix16, if_neg fun h ↦ hdigits h.2.1]

theorem chunkSize_eq (size : SizeLine) (text : List Char) (h : fromUtf8 size.line = some text) :
    chunkSize size.line = fromStrRadix16 (text.takeWhile (· ≠ ';')) := by
  rw [chunkSize, h]
  rfl

theorem ne_semicolon_of_hex {digits : Bytes} (hhex : digits.all isHexDigit) :
    ∀ character ∈ characters digits, decide (character ≠ ';') = true := by
  intro character hmem
  rw [decide_eq_true_eq]
  rintro rfl
  exact absurd (List.all_eq_true.mp (isSome_hexDigit hhex) _ hmem) (by decide)

theorem chunkSize_understood {size : SizeLine} (h : Understood size) :
    chunkSize size.line =
      if hexValue size.digits ≤ maxUsize then some (hexValue size.digits) else none := by
  have hascii : ∀ octet ∈ size.digits, octet < 128 := fun octet hoctet ↦
    lt_of_isHexDigit (List.all_eq_true.mp size.digits_hex octet hoctet)
  have hkeep := ne_semicolon_of_hex size.digits_hex
  rw [← fromStrRadix16_digits size.digits_filled size.digits_hex]
  cases hextension : size.extension with
  | none =>
    have hread : fromUtf8 size.line = some (characters size.digits ++ []) := by
      rw [SizeLine.line_none hextension, ← List.append_nil size.digits,
        fromUtf8_append _ hascii, fromUtf8_nil, List.append_nil size.digits]
      rfl
    rw [chunkSize_eq size _ hread, List.takeWhile_append_of_pos hkeep]
    simp
  | some extension =>
    obtain ⟨blanks, text⟩ := extension
    obtain ⟨rfl, hsome⟩ := h blanks text hextension
    obtain ⟨decoded, hdecoded⟩ := Option.isSome_iff_exists.mp hsome
    have hread : fromUtf8 size.line = some (characters size.digits ++ ';' :: decoded) := by
      rw [SizeLine.line_some hextension, List.nil_append, fromUtf8_append _ hascii,
        List.singleton_append, fromUtf8_cons _ (by decide), hdecoded]
      rfl
    rw [chunkSize_eq size _ hread, List.takeWhile_append_of_pos hkeep]
    simp

theorem chunkSize_not_understood {size : SizeLine} (h : ¬ Understood size) :
    chunkSize size.line = none := by
  cases hextension : size.extension with
  | none =>
    refine absurd ?_ h
    intro blanks text hsome
    rw [hextension] at hsome
    cases hsome
  | some extension =>
    obtain ⟨blanks, text⟩ := extension
    have hblanks : blanks.all isBlank := by
      have hall := size.extension_text
      rw [hextension, Option.all_some, Bool.and_eq_true] at hall
      exact hall.1
    have hascii : ∀ octet ∈ size.digits ++ blanks ++ [59], octet < 128 := by
      intro octet hoctet
      rw [List.append_assoc, List.mem_append, List.mem_append, List.mem_singleton] at hoctet
      rcases hoctet with hdigit | hblank | rfl
      · exact lt_of_isHexDigit (List.all_eq_true.mp size.digits_hex octet hdigit)
      · exact lt_of_isBlank (List.all_eq_true.mp hblanks octet hblank)
      · decide
    have hread : fromUtf8 size.line = (fromUtf8 text).map fun decoded ↦
        characters size.digits ++ (characters blanks ++ ';' :: decoded) := by
      have hline : size.line = size.digits ++ blanks ++ [59] ++ text := by
        simp [SizeLine.line_some hextension]
      rw [hline, fromUtf8_append _ hascii]
      congr 1
      funext decoded
      simp [characters]
    cases hdecoded : fromUtf8 text with
    | none =>
      rw [chunkSize, hread, hdecoded]
      rfl
    | some decoded =>
      obtain ⟨blank, others, rfl⟩ : ∃ blank others, blanks = blank :: others := by
        apply List.exists_cons_of_ne_nil
        rintro rfl
        refine h fun other written hother ↦ ?_
        rw [hextension, Option.some.injEq, Prod.mk.injEq] at hother
        obtain ⟨rfl, rfl⟩ := hother
        exact ⟨rfl, by rw [hdecoded]; rfl⟩
      have hblank : Char.ofNat blank.toNat ≠ ';' ∧ hexDigit (Char.ofNat blank.toNat) = none ∧
          Char.ofNat blank.toNat ≠ '+' := by
        have hkind := List.all_eq_true.mp hblanks blank List.mem_cons_self
        rw [isBlank, Bool.or_eq_true, beq_iff_eq, beq_iff_eq] at hkind
        rcases hkind with rfl | rfl <;> decide
      rw [hdecoded] at hread
      rw [chunkSize_eq size _ hread,
        List.takeWhile_append_of_pos (ne_semicolon_of_hex size.digits_hex)]
      apply fromStrRadix16_blank hblank.2.1 hblank.2.2
      apply List.mem_append_right
      simp [hblank.1, characters]

/-! ## Chunks -/

theorem not_infix_line (size : SizeLine) : ¬ crlf <:+: size.line := by
  intro hinside
  exact size.return_not_mem (hinside.subset (by decide))

section Turn

variable {chunk : Chunk} {decoded : ℕ} (following : Bytes)

theorem chunk_octets_append :
    chunk.octets ++ following = chunk.size.line ++ crlf ++ (chunk.data ++ (crlf ++ following)) := by
  simp [Chunk.octets]

theorem length_data_ne_zero (chunk : Chunk) : chunk.data.length ≠ 0 := by
  intro hempty
  exact chunk.data_filled (List.length_eq_zero_iff.mp hempty)

theorem nextChunk_chunk (hunderstood : Understood chunk.size)
    (hroom : decoded + chunk.data.length ≤ responseLimit) :
    nextChunk (chunk.octets ++ following) decoded = .ok (.next chunk.data following) := by
  have hlimit : responseLimit ≤ maxUsize := by decide
  have hsize : chunkSize chunk.size.line = some chunk.data.length := by
    rw [chunkSize_understood hunderstood, chunk.size_eq, if_pos (by omega)]
  rw [chunk_octets_append]
  exact nextChunk_taken following (not_infix_line chunk.size) hsize chunk.data_filled hroom

theorem nextChunk_refused
    (h : ¬ (Understood chunk.size ∧ decoded + chunk.data.length ≤ responseLimit)) :
    nextChunk (chunk.octets ++ following) decoded = .ok (.failed .incompatible) ∨
      nextChunk (chunk.octets ++ following) decoded = .error .overflow := by
  rw [chunk_octets_append, nextChunk_line _ _ (not_infix_line chunk.size)]
  by_cases hunderstood : Understood chunk.size
  · have hroom : responseLimit < decoded + chunk.data.length :=
      not_le.mp fun hle ↦ h ⟨hunderstood, hle⟩
    rw [chunkSize_understood hunderstood, chunk.size_eq]
    by_cases hrange : chunk.data.length ≤ maxUsize
    · rw [if_pos hrange]
      dsimp only
      rw [if_neg (length_data_ne_zero chunk)]
      by_cases hoverflow : maxUsize < chunk.data.length + 2
      · rw [if_pos hoverflow]
        exact .inr rfl
      · rw [if_neg hoverflow, if_pos (.inr hroom)]
        exact .inl rfl
    · rw [if_neg hrange]
      exact .inl rfl
  · rw [chunkSize_not_understood hunderstood]
    exact .inl rfl

end Turn

/-- The chunks of a body are put together exactly if all their lines are understood and they are
not longer than the limit. -/
theorem decodeChunked_octets {chunks : List Chunk} {last : SizeLine} {rest output : Bytes}
    (hlast : hexValue last.digits = 0) (houtput : output.length ≤ responseLimit) :
    decodeChunked (chunks.flatMap Chunk.octets ++ (last.line ++ crlf ++ rest)) output =
        .ok (.ok (output ++ chunks.flatMap Chunk.data)) ↔
      (∀ chunk ∈ chunks, Understood chunk.size) ∧ Understood last ∧
        (output ++ chunks.flatMap Chunk.data).length ≤ responseLimit := by
  induction chunks generalizing output with
  | nil =>
    rw [List.flatMap_nil, List.nil_append, decodeChunked_eq,
      nextChunk_line rest _ (not_infix_line last), List.flatMap_nil, List.append_nil]
    by_cases hunderstood : Understood last
    · rw [chunkSize_understood hunderstood, hlast, if_pos (Nat.zero_le _)]
      simp [hunderstood, houtput]
    · rw [chunkSize_not_understood hunderstood]
      simp [hunderstood]
  | cons chunk chunks ih =>
    rw [List.flatMap_cons, List.append_assoc, decodeChunked_eq, List.flatMap_cons,
      ← List.append_assoc output]
    by_cases hchunk : Understood chunk.size ∧
        output.length + chunk.data.length ≤ responseLimit
    · rw [nextChunk_chunk _ hchunk.1 hchunk.2]
      have hlater := @ih (output ++ chunk.data) (by rw [List.length_append]; exact hchunk.2)
      simp only [hlater, List.forall_mem_cons, hchunk.1, true_and]
    · have hright : ¬ ((∀ other ∈ chunk :: chunks, Understood other.size) ∧ Understood last ∧
          (output ++ chunk.data ++ chunks.flatMap Chunk.data).length ≤ responseLimit) := by
        rintro ⟨hunderstood, -, hlength⟩
        rw [List.length_append, List.length_append] at hlength
        exact hchunk ⟨hunderstood chunk List.mem_cons_self, by omega⟩
      rcases nextChunk_refused (chunks.flatMap Chunk.octets ++ (last.line ++ crlf ++ rest))
        hchunk with hfailed | hfailed
      · rw [hfailed]
        exact iff_of_false (by simp) hright
      · rw [hfailed]
        exact iff_of_false (by simp) hright

/-! ## The status -/

theorem parseU16_statusDigits {status : ℕ} (h : status < 1000) :
    parseU16 (characters (statusDigits status)) = some status := by
  have hdigit : ∀ digit < 10, (Char.ofNat (UInt8.ofNat (48 + digit)).toNat).isDigit ∧
      Char.ofNat (UInt8.ofNat (48 + digit)).toNat ≠ '+' ∧
      (Char.ofNat (UInt8.ofNat (48 + digit)).toNat).toNat - 48 = digit := by decide
  have hhundreds := hdigit (status / 100) (by omega)
  have htens := hdigit (status / 10 % 10) (by omega)
  have hones := hdigit (status % 10) (by omega)
  have hsign : (characters (statusDigits status)).head? ≠ some '+' := by
    simpa only [characters, statusDigits, List.map_cons, List.head?_cons, ne_eq,
      Option.some.injEq] using hhundreds.2.1
  have hvalue : 10 * (10 * (10 * 0 + status / 100) + status / 10 % 10) + status % 10 = status := by
    omega
  rw [parseU16, if_neg hsign]
  simp only [characters, statusDigits, List.map_cons, List.map_nil, List.foldl_cons,
    List.foldl_nil, List.all_cons, List.all_nil, hhundreds, htens, hones, Bool.and_self, hvalue]
  rw [if_pos ⟨by simp, trivial, by omega⟩]

variable (response : Response)

theorem statusOf_statusLine :
    statusOf response.statusLine =
      if (fromUtf8 response.reason).isSome then some response.status else none := by
  have hdigit : ∀ octet ∈ statusDigits response.status, octet < 128 ∧
      Probes.Config.isWhitespace (Char.ofNat octet.toNat) = false := by
    have hdigits : ∀ digit < 10, UInt8.ofNat (48 + digit) < 128 ∧
        Probes.Config.isWhitespace (Char.ofNat (UInt8.ofNat (48 + digit)).toNat) = false := by
      decide
    intro octet hoctet
    obtain ⟨digit, hdigit, rfl⟩ := exists_digit response.status_lt hoctet
    exact hdigits digit hdigit
  have hascii : ∀ octet ∈ ascii "HTTP/1.1 " ++ statusDigits response.status ++ [32],
      octet < 128 := by
    intro octet hoctet
    rw [List.mem_append, List.mem_append, List.mem_singleton] at hoctet
    rcases hoctet with (hversion | hstatus) | rfl
    · exact (by decide +kernel : ∀ octet ∈ ascii "HTTP/1.1 ", octet < 128) octet hversion
    · exact (hdigit octet hstatus).1
    · decide
  have hread : fromUtf8 response.statusLine = (fromUtf8 response.reason).map fun reason ↦
      "HTTP/1.1".toList ++ ' ' :: (characters (statusDigits response.status) ++ ' ' :: reason) := by
    rw [Response.statusLine, fromUtf8_append _ hascii]
    rfl
  have hword : ∀ character ∈ characters (statusDigits response.status),
      Probes.Config.isWhitespace character = false := by
    intro character hcharacter
    obtain ⟨octet, hoctet, rfl⟩ := List.mem_map.mp hcharacter
    exact (hdigit octet hoctet).2
  have hversion : ∀ character ∈ "HTTP/1.1".toList,
      Probes.Config.isWhitespace character = false := by
    have hall : ("HTTP/1.1".toList.all fun character ↦
        !Probes.Config.isWhitespace character) = true := by decide
    intro character hcharacter
    exact Bool.not_eq_true' _ ▸ List.all_eq_true.mp hall character hcharacter
  have hfilled : (characters (statusDigits response.status)).isEmpty = false := rfl
  rw [statusOf, hread]
  cases fromUtf8 response.reason with
  | none => rfl
  | some reason =>
    simp only [Option.map_some, bind, Option.bind, Option.isSome_some, if_true]
    rw [List.splitOnP_append_cons_of_forall_mem hversion _ (by decide),
      List.splitOnP_append_cons_of_forall_mem hword _ (by decide),
      List.filter_cons_of_pos (by decide), List.filter_cons_of_pos (by rw [hfilled]; rfl)]
    exact parseU16_statusDigits response.status_lt

/-! ## The header fields -/

/-- The body is announced in the one way that is recognised: there is one blank before the coding,
none behind it, and another field follows. -/
def Recognized (fields : List Field) : Prop :=
  ∃ field ∈ fields.dropLast,
    field.named "transfer-encoding" ∧ field.before = [32] ∧ field.after = []

/-- The lines as they are split: each one but the last has the first half of its separator. -/
theorem any_splitOn (kind : Bytes → Bool) {line : Bytes} {lines : List Bytes} (hline : 10 ∉ line)
    (hlines : ∀ other ∈ lines, 10 ∉ other) :
    ((line ++ lines.flatMap (crlf ++ ·)).splitOn 10).any kind =
      (((line :: lines).dropLast.any fun other ↦ kind (other ++ [13])) ||
        kind ((line :: lines).getLast (List.cons_ne_nil _ _))) := by
  have hsplit {part : Bytes} (h : 10 ∉ part) : ∀ octet ∈ part, (octet == 10) = false := by
    intro octet hoctet
    rw [beq_eq_false_iff_ne]
    rintro rfl
    exact h hoctet
  rw [List.splitOn_eq_splitOnP]
  induction lines generalizing line with
  | nil => simp [List.splitOnP_eq_singleton (hsplit hline)]
  | cons next lines ih =>
    have hnext := ih (hlines next List.mem_cons_self) fun other hother ↦
      hlines other (List.mem_cons_of_mem _ hother)
    have hreturn : (10 : UInt8) ∉ line ++ [13] := by simp [hline]
    have hinput : line ++ (next :: lines).flatMap (crlf ++ ·) =
        (line ++ [13]) ++ 10 :: (next ++ lines.flatMap (crlf ++ ·)) := by simp [crlf]
    rw [hinput, List.splitOnP_append_cons_of_forall_mem (hsplit hreturn) _ (by decide),
      List.any_cons, hnext]
    simp [Bool.or_assoc]

theorem lowerOctet_eq_iff {octet fixed : UInt8} (h : fixed < 65) :
    lowerOctet octet = fixed ↔ octet = fixed := by
  unfold lowerOctet
  split
  · next hupper =>
    simp only [UInt8.le_iff_toNat_le, UInt8.lt_iff_toNat_lt, ← UInt8.toNat_inj,
      UInt8.toNat_add] at hupper h ⊢
    simp only [UInt8.toNat_ofNat] at hupper h ⊢
    omega
  · rfl

theorem mem_map_lowerOctet {octets : Bytes} {fixed : UInt8} (h : fixed < 65) :
    fixed ∈ octets.map lowerOctet ↔ fixed ∈ octets := by
  simp [List.mem_map, lowerOctet_eq_iff h]

theorem map_lowerOctet_blank {octets : Bytes} (h : octets.all isBlank) :
    octets.map lowerOctet = octets := by
  rw [List.map_congr_left (g := id), List.map_id]
  intro octet hoctet
  have hkind := List.all_eq_true.mp h octet hoctet
  rw [isBlank, Bool.or_eq_true, beq_iff_eq, beq_iff_eq] at hkind
  rcases hkind with rfl | rfl <;> rfl

theorem blanks_around {before after : Bytes}
    (h : before ++ ascii "chunked" ++ after = 32 :: ascii "chunked") :
    before = [32] ∧ after = [] := by
  have hlength := congrArg List.length h
  simp only [List.length_append, List.length_cons] at hlength
  cases before with
  | nil =>
    have hhead : some (99 : UInt8) = some 32 := congrArg List.head? h
    exact absurd hhead (by decide)
  | cons blank before =>
    obtain rfl : before = [] := List.eq_nil_of_length_eq_zero (by
      rw [List.length_cons] at hlength
      omega)
    obtain rfl : after = [] := List.eq_nil_of_length_eq_zero (by
      rw [List.length_singleton] at hlength
      omega)
    rw [List.append_nil, List.singleton_append, List.cons.injEq] at h
    exact ⟨by rw [h.1], rfl⟩

/-- A field line is the one that is looked for if its name and the blanks in it are. -/
theorem eqIgnoreAsciiCase_line (field : Field)
    (hvalue : field.named "transfer-encoding" → eqIgnoreAsciiCase field.value (ascii "chunked")) :
    eqIgnoreAsciiCase (field.line ++ [13]) (ascii "transfer-encoding: chunked\r") ↔
      field.named "transfer-encoding" ∧ field.before = [32] ∧ field.after = [] := by
  have htarget : (ascii "transfer-encoding: chunked\r").map lowerOctet =
      (ascii "transfer-encoding").map lowerOctet ++ 58 :: (32 :: ascii "chunked" ++ [13]) := by
    decide
  have hline : (field.line ++ [13]).map lowerOctet =
      field.name.map lowerOctet ++
        58 :: (field.before ++ field.value.map lowerOctet ++ field.after ++ [13]) := by
    have hcolon : lowerOctet 58 = 58 ∧ lowerOctet 13 = 13 := by decide
    simp [Field.line, hcolon, map_lowerOctet_blank field.before_blank,
      map_lowerOctet_blank field.after_blank]
  have hcoding : (ascii "chunked").map lowerOctet = ascii "chunked" := by decide
  have hcoded (hname : (ascii "transfer-encoding").map lowerOctet = field.name.map lowerOctet) :
      field.value.map lowerOctet = ascii "chunked" := by
    have hequal := hvalue (by rw [Field.named, eqIgnoreAsciiCase, hname, beq_self_eq_true])
    rw [eqIgnoreAsciiCase, beq_iff_eq, hcoding] at hequal
    exact hequal
  have hcolon : (58 : UInt8) ∉ 32 :: ascii "chunked" ++ [13] := by decide
  rw [eqIgnoreAsciiCase, beq_iff_eq, hline, htarget, eq_comm,
    List.append_cons_inj_of_notMem (by decide) hcolon, Field.named, eqIgnoreAsciiCase, beq_iff_eq]
  constructor
  · rintro ⟨hname, -, hrest⟩
    rw [hcoded hname, List.append_cancel_right_eq] at hrest
    exact ⟨hname.symm, blanks_around hrest.symm⟩
  · rintro ⟨hname, hbefore, hafter⟩
    refine ⟨hname.symm, rfl, ?_⟩
    rw [hcoded hname.symm, hbefore, hafter]
    rfl

/-- The status line and the last line are never taken for the one that is looked for. -/
theorem isChunked_head (hvalue : ∀ field ∈ response.fields, field.named "transfer-encoding" →
      eqIgnoreAsciiCase field.value (ascii "chunked")) :
    isChunked response.head ↔ Recognized response.fields := by
  have hfields : ∀ line ∈ response.fields.map Field.line, 10 ∉ line := by
    intro line hline
    obtain ⟨field, -, rfl⟩ := List.mem_map.mp hline
    exact field.not_mem_line (by decide)
  have hreturn {line : Bytes} (h : 13 ∉ line) :
      eqIgnoreAsciiCase line (ascii "transfer-encoding: chunked\r") = false := by
    rw [eqIgnoreAsciiCase, beq_eq_false_iff_ne]
    intro hequal
    have hmem : (13 : UInt8) ∈ line.map lowerOctet := by
      rw [hequal]
      decide
    exact h ((mem_map_lowerOctet (by decide)).mp hmem)
  have hstatus : eqIgnoreAsciiCase (response.statusLine ++ [13])
      (ascii "transfer-encoding: chunked\r") = false := by
    rw [eqIgnoreAsciiCase, beq_eq_false_iff_ne]
    intro hequal
    have hhead : some (104 : UInt8) = some 116 := congrArg List.head? hequal
    exact absurd hhead (by decide)
  rw [isChunked, Response.head,
    any_splitOn _ (response.not_mem_statusLine (by decide)) hfields, Recognized]
  cases hcases : response.fields with
  | nil =>
    have hlast := hreturn (response.not_mem_statusLine (by decide))
    simp [hlast]
  | cons field fields =>
    have hlines : (response.statusLine :: (field :: fields).map Field.line).dropLast =
        response.statusLine :: (field :: fields).dropLast.map Field.line := by
      rw [List.dropLast_cons_of_ne_nil (by simp), List.map_dropLast]
    have hlast : eqIgnoreAsciiCase
        ((response.statusLine :: (field :: fields).map Field.line).getLast (List.cons_ne_nil _ _))
        (ascii "transfer-encoding: chunked\r") = false := by
      apply hreturn
      rw [List.getLast_cons (by simp), List.getLast_map]
      exact Field.not_mem_line _ (by decide)
    rw [hlines, hlast, Bool.or_false, List.any_cons, hstatus, Bool.false_or, List.any_map,
      List.any_eq_true]
    apply exists_congr
    intro other
    apply and_congr_right
    intro hother
    have hmem : other ∈ response.fields := hcases ▸ List.mem_of_mem_dropLast hother
    exact eqIgnoreAsciiCase_line other (hvalue other hmem)

/-! ## Responses -/

/-- What the agent makes of a response: the body, or what its status stands for. -/
def expected (response : Response) : Except DockerError Bytes :=
  if response.status = 401 ∨ response.status = 403 then .error .permissionDenied
  else if response.status < 200 ∨ 300 ≤ response.status then .error .unavailable
  else .ok response.body.content

/-- The body is read as it was meant. -/
def BodyRead (fields : List Field) : Body → Prop
  | .plain _ => True
  | .chunked body =>
    Recognized fields ∧ (∀ chunk ∈ body.chunks, Understood chunk.size) ∧ Understood body.last ∧
      body.content.length ≤ responseLimit

/-- The reason is text, and the body of a success is read as it was meant. -/
structure Readable (response : Response) : Prop where
  reason : (fromUtf8 response.reason).isSome
  body : 200 ≤ response.status → response.status < 300 → BodyRead response.fields response.body

theorem parse_of_position {headers body : Bytes}
    (h : position (crlf ++ crlf) (headers ++ (crlf ++ crlf) ++ body) = some headers.length) :
    parseHttpResponse (headers ++ (crlf ++ crlf) ++ body) =
      match statusOf (firstLine headers) with
      | none => .ok (.error .incompatible)
      | some status =>
        if status = 401 ∨ status = 403 then .ok (.error .permissionDenied)
        else if status < 200 ∨ 300 ≤ status then .ok (.error .unavailable)
        else if isChunked headers then decodeChunked body []
        else .ok (.ok body) := by
  have htake : sliceTo (headers ++ (crlf ++ crlf) ++ body) headers.length = .ok headers := by
    rw [sliceTo, if_pos (by simp), List.append_assoc, List.take_left]
  have hdrop : sliceFrom (headers ++ (crlf ++ crlf) ++ body) (headers.length + 4) = .ok body := by
    have hlength : headers.length + 4 = (headers ++ (crlf ++ crlf)).length := by simp [crlf]
    rw [sliceFrom, hlength, if_pos (by simp), List.drop_left]
  have hline : (position crlf headers).getD headers.length ≤ headers.length := by
    cases hposition : position crlf headers with
    | none => exact Nat.le_refl _
    | some index => exact (prefix_of_position hposition).1
  rw [parseHttpResponse, h]
  dsimp only
  rw [htake]
  simp only [bind, Except.bind]
  rw [hdrop, sliceTo, if_pos hline]
  rfl

theorem firstLine_head : firstLine response.head = response.statusLine := by
  have hline : (13 : UInt8) ∉ response.statusLine := response.not_mem_statusLine (by decide)
  rw [firstLine, Response.head]
  cases response.fields with
  | nil =>
    have hnone : position crlf response.statusLine = none := by
      cases hposition : position crlf response.statusLine with
      | none => rfl
      | some index =>
        have hmem := append_of_position hposition
        refine absurd ?_ hline
        rw [hmem]
        simp [crlf]
    simp [hnone]
  | cons field fields =>
    have hinput : response.statusLine ++
        ((field :: fields).map Field.line).flatMap (crlf ++ ·) =
          response.statusLine ++ crlf ++
            (field.line ++ (fields.map Field.line).flatMap (crlf ++ ·)) := by simp
    have hposition : position crlf (response.statusLine ++ crlf ++
        (field.line ++ (fields.map Field.line).flatMap (crlf ++ ·))) =
          some response.statusLine.length := by
      apply position_line (by decide)
      intro hinside
      exact hline (hinside.subset (by decide))
    rw [hinput, hposition, Option.getD_some, List.append_assoc, List.take_left]

theorem isChunked_plain {octets : Bytes} (hbody : response.body = .plain octets) :
    isChunked response.head = false := by
  have hframed := response.framed
  rw [hbody] at hframed
  have hnone := hframed.1
  rw [← Bool.not_eq_true, isChunked_head response fun field hfield hnamed ↦ by
    rw [hnone field hfield] at hnamed
    cases hnamed]
  rintro ⟨field, hfield, hnamed, -⟩
  rw [hnone field (List.mem_of_mem_dropLast hfield)] at hnamed
  cases hnamed

theorem isChunked_chunked {body : ChunkedBody} (hbody : response.body = .chunked body) :
    isChunked response.head ↔ Recognized response.fields := by
  have hframed := response.framed
  rw [hbody] at hframed
  obtain ⟨⟨coding, hcoding, hchunked⟩, -⟩ := hframed
  apply isChunked_head
  intro field hfield hnamed
  have hmem : field ∈ response.fields.filter (Field.named · "transfer-encoding") :=
    List.mem_filter.mpr ⟨hfield, hnamed⟩
  rw [hcoding, List.mem_singleton] at hmem
  rw [hmem]
  exact hchunked

theorem length_content_lt (body : ChunkedBody) : body.content.length < body.octets.length := by
  have hchunks (chunks : List Chunk) :
      (chunks.flatMap Chunk.data).length ≤ (chunks.flatMap Chunk.octets).length := by
    induction chunks with
    | nil => exact Nat.le_refl 0
    | cons chunk chunks ih =>
      simp only [List.flatMap_cons, List.length_append, Chunk.octets]
      omega
  have hbody := hchunks body.chunks
  have hsize : (crlf : Bytes).length = 2 := rfl
  simp only [ChunkedBody.content, ChunkedBody.octets, List.length_append, hsize]
  omega

theorem parse_octets_iff :
    parseHttpResponse response.octets = .ok (expected response) ↔ Readable response := by
  have hposition := response.position_head
  rw [response.octets_eq] at hposition
  rw [response.octets_eq, parse_of_position hposition, firstLine_head, statusOf_statusLine]
  by_cases hreason : (fromUtf8 response.reason).isSome
  swap
  · rw [if_neg hreason]
    refine iff_of_false ?_ fun h ↦ hreason h.reason
    rw [expected]
    dsimp only
    split
    · simp
    split <;> simp
  rw [if_pos hreason, expected]
  dsimp only
  by_cases hdenied : response.status = 401 ∨ response.status = 403
  · rw [if_pos hdenied, if_pos hdenied]
    exact iff_of_true rfl ⟨hreason, fun _ _ ↦ by omega⟩
  rw [if_neg hdenied, if_neg hdenied]
  by_cases hfailed : response.status < 200 ∨ 300 ≤ response.status
  · rw [if_pos hfailed, if_pos hfailed]
    exact iff_of_true rfl ⟨hreason, fun _ _ ↦ by omega⟩
  rw [if_neg hfailed, if_neg hfailed]
  have hreadable : Readable response ↔ BodyRead response.fields response.body :=
    ⟨fun h ↦ h.body (by omega) (by omega), fun h ↦ ⟨hreason, fun _ _ ↦ h⟩⟩
  rw [hreadable]
  cases hbody : response.body with
  | plain octets =>
    rw [isChunked_plain response hbody]
    exact iff_of_true rfl trivial
  | chunked body =>
    by_cases hrecognized : Recognized response.fields
    · have hdecode := @decodeChunked_octets body.chunks body.last
        (fieldLines body.trailers ++ crlf) [] body.last_zero (Nat.zero_le _)
      have hoctets : body.octets = body.chunks.flatMap Chunk.octets ++
          (body.last.line ++ crlf ++ (fieldLines body.trailers ++ crlf)) := by
        simp [ChunkedBody.octets]
      rw [if_pos ((isChunked_chunked response hbody).mpr hrecognized), Body.octets, hoctets]
      rw [List.nil_append] at hdecode
      rw [Body.content, ChunkedBody.content, hdecode, BodyRead]
      simp only [hrecognized, true_and]
      rfl
    · rw [if_neg fun h ↦ hrecognized ((isChunked_chunked response hbody).mp h)]
      refine iff_of_false ?_ fun h ↦ hrecognized h.1
      intro hequal
      have hsame : body.octets = body.content := by simpa [Body.octets, Body.content] using hequal
      have hlength := length_content_lt body
      rw [hsame] at hlength
      exact Nat.lt_irrefl _ hlength

/-! ## Any octets -/

/-- A chunk with its line, as the loop takes it. -/
structure TakenChunk where
  line : Bytes
  data : Bytes
  line_free : ¬ crlf <:+: line
  size_eq : chunkSize line = some data.length
  data_filled : data ≠ []

def TakenChunk.octets (chunk : TakenChunk) : Bytes := chunk.line ++ crlf ++ chunk.data ++ crlf

/-- Behind chunks that fit in the limit stands a size that two cannot be added to. -/
def Oversized (decoded : ℕ) (input : Bytes) : Prop :=
  ∃ (chunks : List TakenChunk) (line rest : Bytes) (size : ℕ),
    input = chunks.flatMap TakenChunk.octets ++ (line ++ crlf ++ rest) ∧ ¬ crlf <:+: line ∧
      chunkSize line = some size ∧ maxUsize < size + 2 ∧
      decoded + (chunks.flatMap TakenChunk.data).length ≤ responseLimit

/-- The octets are those of a success in chunks, with such a size among them. -/
def Overflowing (octets : Bytes) : Prop :=
  ∃ (headers body : Bytes) (status : ℕ), octets = headers ++ (crlf ++ crlf) ++ body ∧
    position (crlf ++ crlf) octets = some headers.length ∧
    statusOf (firstLine headers) = some status ∧ 200 ≤ status ∧ status < 300 ∧
    isChunked headers ∧ Oversized 0 body

theorem overflow_of_oversized {input output : Bytes} (h : Oversized output.length input) :
    decodeChunked input output = .error .overflow := by
  obtain ⟨chunks, line, rest, size, rfl, hline, hsize, hoverflow, hroom⟩ := h
  induction chunks generalizing output with
  | nil =>
    have hzero : size ≠ 0 := by
      rintro rfl
      exact absurd hoverflow (by decide)
    rw [List.flatMap_nil, List.nil_append, decodeChunked_eq, nextChunk_line rest _ hline, hsize]
    dsimp only
    rw [if_neg hzero, if_pos hoverflow]
  | cons chunk chunks ih =>
    have hinput : (chunk :: chunks).flatMap TakenChunk.octets ++ (line ++ crlf ++ rest) =
        chunk.line ++ crlf ++ (chunk.data ++ (crlf ++
          (chunks.flatMap TakenChunk.octets ++ (line ++ crlf ++ rest)))) := by
      simp [TakenChunk.octets]
    rw [List.flatMap_cons, List.length_append] at hroom
    rw [hinput, decodeChunked_eq,
      nextChunk_taken _ chunk.line_free chunk.size_eq chunk.data_filled (by omega)]
    apply ih
    rw [List.length_append]
    omega

theorem oversized_of_panic {input output : Bytes} {panic : Panic}
    (h : decodeChunked input output = .error panic) (houtput : output.length ≤ responseLimit) :
    Oversized output.length input := by
  induction hlength : input.length using Nat.strong_induction_on generalizing input output with
  | _ length ih =>
    rw [decodeChunked_eq] at h
    cases hstep : nextChunk input output.length with
    | error other =>
      obtain ⟨line, rest, size, rfl, hline, hsize, hoverflow⟩ := nextChunk_error hstep
      exact ⟨[], line, rest, size, rfl, hline, hsize, hoverflow, houtput⟩
    | ok step =>
      rw [hstep] at h
      cases step with
      | failed error => cases h
      | finished => cases h
      | next data following =>
        have hshorter := length_lt_of_next hstep
        obtain ⟨line, rfl, hline, hsize, hfilled, hroom⟩ := nextChunk_next hstep
        rw [← List.length_append] at hroom
        obtain ⟨chunks, last, rest, size, rfl, hrest⟩ :=
          ih _ (hlength ▸ hshorter) h hroom rfl
        refine ⟨⟨line, data, hline, hsize, hfilled⟩ :: chunks, last, rest, size, ?_, hrest.1,
          hrest.2.1, hrest.2.2.1, ?_⟩
        · simp [TakenChunk.octets]
        · have htotal := hrest.2.2.2
          rw [List.length_append, Nat.add_assoc] at htotal
          rw [List.flatMap_cons, List.length_append]
          exact htotal

/-- Nothing that comes from the socket makes the agent panic, but such a size. -/
theorem parse_returns_iff (octets : Bytes) :
    (∃ result, parseHttpResponse octets = .ok result) ↔ ¬ Overflowing octets := by
  constructor
  · rintro ⟨result, hresult⟩ ⟨headers, body, status, rfl, hposition, hstatus, hleast, hmost,
      hchunked, hoversized⟩
    rw [parse_of_position hposition, hstatus] at hresult
    dsimp only at hresult
    rw [if_neg (by omega), if_neg (by omega), if_pos hchunked,
      @overflow_of_oversized body [] hoversized] at hresult
    cases hresult
  · intro hnot
    cases hparse : parseHttpResponse octets with
    | ok result => exact ⟨result, rfl⟩
    | error panic =>
      refine absurd ?_ hnot
      cases hposition : position (crlf ++ crlf) octets with
      | none =>
        rw [parseHttpResponse, hposition] at hparse
        cases hparse
      | some separator =>
        have hsplit := append_of_position hposition
        have hlength : (octets.take separator).length = separator := by
          rw [List.length_take]
          exact Nat.min_eq_left (prefix_of_position hposition).1
        generalize octets.take separator = headers at hsplit hlength
        generalize octets.drop (separator + (crlf ++ crlf).length) = body at hsplit
        subst hsplit hlength
        rw [parse_of_position hposition] at hparse
        cases hstatus : statusOf (firstLine headers) with
        | none =>
          rw [hstatus] at hparse
          cases hparse
        | some status =>
          rw [hstatus] at hparse
          dsimp only at hparse
          split at hparse
          · cases hparse
          split at hparse
          · cases hparse
          split at hparse
          · next hchunked =>
            exact ⟨headers, body, status, rfl, hposition, hstatus, by omega, by omega, hchunked,
              oversized_of_panic hparse (Nat.zero_le _)⟩
          · cases hparse

/-- A well-formed response is read as it was meant exactly if it is readable, and any octets are
answered or refused exactly if they do not contain a size at the end of its range. -/
theorem parse_iff (response : Response) (octets : Bytes) :
    (parseHttpResponse response.octets = .ok (expected response) ↔ Readable response) ∧
      ((∃ result, parseHttpResponse octets = .ok result) ↔ ¬ Overflowing octets) :=
  ⟨parse_octets_iff response, parse_returns_iff octets⟩

/-! ## A body in chunks that is announced last -/

def codingField : Field where
  name := ascii "Transfer-Encoding"
  before := [32]
  value := ascii "chunked"
  after := []
  name_filled := by decide
  name_token := by decide
  before_blank := by decide
  value_text := by decide
  value_first := by decide
  value_last := by decide
  after_blank := by decide

def sizeLine (digit : UInt8) (h : isHexDigit digit) : SizeLine where
  digits := [digit]
  extension := none
  digits_filled := List.cons_ne_nil _ _
  digits_hex := by simp [h]
  extension_text := rfl

/-- An empty object in one chunk of two octets. -/
def announcedLast : Response where
  status := 200
  reason := ascii "OK"
  fields := [codingField]
  body := .chunked
    { chunks := [⟨sizeLine 50 (by decide), [123, 125], by decide, by decide⟩]
      last := sizeLine 48 (by decide)
      trailers := []
      last_zero := by decide }
  status_lt := by decide
  reason_text := by decide
  framed := ⟨⟨codingField, rfl, by decide⟩, by decide⟩

/-- The chunks are given out as they are. -/
theorem last_field_overlooked :
    ¬ ((∀ response : Response,
        parseHttpResponse response.octets = .ok (expected response)) ∧
      ∀ octets, ∃ result, parseHttpResponse octets = .ok result) := by
  intro h
  have hreadable := (parse_octets_iff announcedLast).mp (h.1 announcedLast)
  obtain ⟨⟨field, hfield, -⟩, -⟩ := hreadable.body (by decide) (by decide)
  exact absurd hfield List.not_mem_nil

end AlphaPing.Agent.DockerResponses
