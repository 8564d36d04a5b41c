import StageTree.Proofs.Json.Written
import StageTree.Proofs.Text.Blank
import StageTree.Proofs.Text.Utf8
import StageTree.Proofs.Wire.Reading
import StageTree.Service

/-!
# Answers of the Service

The document that is fetched is the one that the answer holds: the answer came with the good
status, and its body is the text of a document with white space around it. Everything else is
reported as a failure of the service, with a few exceptions, and they are all listed.

Two of the exceptions are limits of the reader of documents. The others are that a body of white
space passes for the null value, and that a body that is no text is noticed only under the good
status.

## Main definitions

* `Service.Holds`: The bytes of a text that writes a document.
* `Service.Escapes`: A trouble that is not reported as a failure of the service.

## Theorems

* `Service.document_eq_ok`: The document of an answer is the one that it holds.
* `Service.document_error`: Why an answer has no document.
* `Service.document_or_failure`: A document is fetched exactly if the answer holds it, and
  anything else is reported as a failure unless it is listed.
-/

namespace StageTree

/-! ## Bytes -/

namespace Utf8

/-- Texts in a row are encoded in a row. -/
theorem encode_append (cs ds : List Char) :
    encode (String.ofList (cs ++ ds)) =
      encode (String.ofList cs) ++ encode (String.ofList ds) := by
  rw [encode_ofList, encode_ofList, encode_ofList, List.flatMap_append]

/-- A character of ASCII is one byte. -/
theorem encodeChar_of_lt {c : Char} (h : c.toNat < 0x7f) :
    String.utf8EncodeChar c = [UInt8.ofNat c.toNat] := by
  rw [encodeChar_eq, if_pos (Nat.le_of_lt h)]

end Utf8

namespace Service

variable {bytes : List UInt8} {j : Json} {cs : List Char} {trouble : Trouble}

/-- Bytes that are white space. -/
def Blank (bytes : List UInt8) : Prop := ∀ b ∈ bytes, isBlankByte b = true

/-- The bytes of a text, with white space around them. -/
def HoldsText (bytes : List UInt8) (cs : List Char) : Prop :=
  ∃ before after, Blank before ∧ Blank after ∧
    bytes = before ++ (Utf8.encode (String.ofList cs) ++ after)

/-- The bytes of a text that writes a document, with white space around them. -/
def Holds (bytes : List UInt8) (j : Json) : Prop :=
  ∃ cs, HoldsText bytes cs ∧ Json.Writes Json.integerDigitLimit nestingLimit cs j

/-- A gap is white space in bytes, too. -/
theorem blank_encode_gap (h : Json.Gap cs) : Blank (Utf8.encode (String.ofList cs)) := by
  intro b hb
  -- Each of the four characters of a gap is one byte of white space.
  rw [Utf8.encode_ofList, List.mem_flatMap] at hb
  rcases hb with ⟨c, hc, hb⟩
  have hgap := h c hc
  simp only [Json.isGap, Bool.or_eq_true, decide_eq_true_eq] at hgap
  rcases hgap with ((rfl | rfl) | rfl) | rfl
  all_goals
    rw [Utf8.encodeChar_of_lt (by decide), List.mem_singleton] at hb
    subst hb
    decide

/-- A mark is no white space in bytes. -/
theorem isBlankByte_of_mark {c : Char} (h : Json.Mark c) :
    isBlankByte (UInt8.ofNat c.toNat) = false := by
  rcases h with ⟨hlow, hhigh⟩
  have hbyte : (UInt8.ofNat c.toNat).toNat = c.toNat := by
    rw [UInt8.toNat_ofNat', Nat.mod_eq_of_lt (Nat.lt_trans hhigh (by decide))]
  rw [isBlankByte, Bool.or_eq_false_iff, Bool.and_eq_false_iff, decide_eq_false_iff_not,
    decide_eq_false_iff_not, beq_eq_false_iff_ne, UInt8.le_iff_toNat_le, UInt8.le_iff_toNat_le,
    Ne, ← UInt8.toNat_inj, hbyte]
  simp only [UInt8.reduceToNat]
  omega

/-- White space around a text that is seen at both ends is cut off, and nothing else. -/
theorem trimBlankBytes_marked (hcs : Json.Marked cs) {before after : List UInt8}
    (hbefore : Blank before) (hafter : Blank after) :
    trimBlankBytes (before ++ (Utf8.encode (String.ofList cs) ++ after)) =
      Utf8.encode (String.ofList cs) := by
  refine trimWhere_between hbefore hafter ?_ ?_
  · -- The first and the last character are marks, so their bytes are no white space.
    rcases hcs.first with ⟨c, more, rfl, hc, _⟩
    refine ⟨_, ?_, isBlankByte_of_mark hc⟩
    rw [Utf8.encode_ofList, List.flatMap_cons, Utf8.encodeChar_of_lt hc.2]
    rfl
  · rcases hcs.last with ⟨more, c, rfl, hc⟩
    refine ⟨_, ?_, isBlankByte_of_mark hc⟩
    rw [Utf8.encode_append, Utf8.encode_ofList [c], List.flatMap_singleton,
      Utf8.encodeChar_of_lt hc.2, List.getLast?_concat]
    rfl

/-- The text of some bytes is the one that they encode. -/
theorem readText_eq_ok : readText bytes = .ok cs ↔ bytes = Utf8.encode (String.ofList cs) := by
  rw [← Utf8.decode_eq_ok, readText]
  cases Utf8.decode bytes <;> simp [Except.mapError]

/-- A document is read exactly from texts that write it, with gaps around it. -/
theorem readDocument_eq_ok : readDocument cs = .ok j ↔
    Json.Spaced (Json.Writes Json.integerDigitLimit nestingLimit) cs j := by
  rw [← Json.read_eq_ok, readDocument]
  cases Json.read nestingLimit cs <;> simp [Except.mapError]

/-- What is written for a document is read again, with white space around it. -/
theorem readDocument_written (h : j.Textual) (hroom : j.nesting ≤ nestingLimit)
    (layout : Json.Layout) {before after : List Char} (hbefore : Json.Gap before)
    (hafter : Json.Gap after) :
    readDocument (before ++ (j.write layout ++ after)) = .ok j.reread :=
  readDocument_eq_ok.2 ⟨before, j.write layout, after, hbefore,
    h.writes Json.integerDigitLimit hroom layout 0, hafter, rfl⟩

/-- A text that writes a document is all that is left when the white space around it is cut
    off. -/
theorem HoldsText.trim (h : HoldsText bytes cs) (hcs : Json.Marked cs) :
    trimBlankBytes bytes = Utf8.encode (String.ofList cs) := by
  rcases h with ⟨before, after, hbefore, hafter, rfl⟩
  exact trimBlankBytes_marked hcs hbefore hafter

/-- What is left when white space is cut off is inside it. -/
theorem holdsText_of_trim (h : trimBlankBytes bytes = Utf8.encode (String.ofList cs)) :
    HoldsText bytes cs := by
  rcases exists_trim isBlankByte bytes with ⟨before, after, hbefore, hafter, hbytes⟩
  exact ⟨before, after, hbefore, hafter, h ▸ hbytes⟩

/-- The gaps around a text are white space around its bytes. -/
theorem HoldsText.of_gaps {before after : List Char} (hbefore : Json.Gap before)
    (hafter : Json.Gap after) (h : HoldsText bytes (before ++ (cs ++ after))) :
    HoldsText bytes cs := by
  rcases h with ⟨front, back, hfront, hback, rfl⟩
  refine ⟨front ++ Utf8.encode (String.ofList before),
    Utf8.encode (String.ofList after) ++ back,
    List.forall_mem_append.2 ⟨hfront, blank_encode_gap hbefore⟩,
    List.forall_mem_append.2 ⟨blank_encode_gap hafter, hback⟩, ?_⟩
  rw [Utf8.encode_append, Utf8.encode_append]
  simp only [List.append_assoc]

/-- An answer of white space has the null value, and others the document of their text. -/
theorem document_eq (bytes : List UInt8) : document bytes =
    if trimBlankBytes bytes = [] then .ok .null
    else readText (trimBlankBytes bytes) >>= readDocument := by
  unfold document
  split
  · rename_i hnil
    rw [if_pos hnil]
  · rename_i hne
    exact (if_neg hne).symm

/-- The document of an answer is the one that it holds. -/
theorem document_eq_ok : document bytes = .ok j ↔ Blank bytes ∧ j = .null ∨ Holds bytes j := by
  have htrim {cs : List Char} (hcs : Json.Marked cs) : Utf8.encode (String.ofList cs) ≠ [] := by
    rcases hcs.first with ⟨c, more, rfl, _⟩
    rw [Utf8.encode_ofList, List.flatMap_cons]
    exact List.append_ne_nil_of_left_ne_nil String.utf8EncodeChar_ne_nil _
  rw [document_eq]
  constructor
  · intro h
    split at h
    · rename_i hnil
      cases h
      exact Or.inl ⟨trimWhere_eq_nil.1 hnil, rfl⟩
    · rcases Wire.bind_eq_ok.1 h with ⟨cs, htext, hread⟩
      -- The gaps in the text go to the white space around its bytes.
      rcases readDocument_eq_ok.1 hread with ⟨before, core, after, hbefore, hcore, hafter, rfl⟩
      have hholds := holdsText_of_trim (readText_eq_ok.1 htext)
      exact Or.inr ⟨core, hholds.of_gaps hbefore hafter, hcore⟩
  · rintro (⟨hblank, rfl⟩ | ⟨cs, hholds, hcs⟩)
    · exact if_pos (trimWhere_eq_nil.2 hblank)
    · -- A document begins and ends with a mark, so exactly its text is left.
      have hcontent := hholds.trim hcs.marked
      rw [hcontent, if_neg (htrim hcs.marked)]
      refine Wire.bind_eq_ok.2 ⟨cs, readText_eq_ok.2 rfl, readDocument_eq_ok.2 ?_⟩
      exact ⟨[], cs, [], Json.gap_nil, hcs, Json.gap_nil, (List.append_nil cs).symm⟩

/-- Bytes that are not read as a text encode none. -/
theorem readText_eq_error (h : readText bytes = .error trouble) :
    (∃ refusal, trouble = .notText refusal) ∧ ∀ text, bytes ≠ Utf8.encode text := by
  -- The bytes of a text are read as the text.
  have hnone : ∀ text, bytes ≠ Utf8.encode text := by
    rintro text rfl
    cases h.symm.trans (readText_eq_ok.2 (congrArg Utf8.encode String.ofList_toList.symm))
  unfold readText at h
  cases hdecode : Utf8.decode bytes with
  | ok cs =>
      rw [hdecode] at h
      cases h
  | error refusal =>
      rw [hdecode] at h
      cases h
      exact ⟨⟨refusal, rfl⟩, hnone⟩

/-- Why a text is not read as a document. Past a limit, the trouble is not that the text is
    malformed. -/
theorem readDocument_error (h : readDocument cs = .error trouble) :
    isUnreadable trouble = true ∨
      ((∃ digits, trouble = .longInteger digits) ∧ Json.LongRun Json.integerDigitLimit cs) ∨
      trouble = .outOfRoom ∧ nestingLimit < cs.countP Json.opensNesting := by
  unfold readDocument at h
  cases hread : Json.read nestingLimit cs with
  | ok j =>
      rw [hread] at h
      cases h
  | error error =>
      rw [hread] at h
      cases h
      have hwarranted := Json.read_error hread
      cases error with
      | malformed _ _ _ _ => exact Or.inl rfl
      | longInteger digits => exact Or.inr (Or.inl ⟨⟨digits, rfl⟩, hwarranted⟩)
      | tooDeep => exact Or.inr (Or.inr ⟨rfl, hwarranted⟩)

/-- Why an answer has no document. -/
theorem document_error (h : document bytes = .error trouble) :
    isUnreadable trouble = true ∨ ∃ cs, HoldsText bytes cs ∧
      ((∃ digits, trouble = .longInteger digits) ∧ Json.LongRun Json.integerDigitLimit cs ∨
        trouble = .outOfRoom ∧ nestingLimit < cs.countP Json.opensNesting) := by
  -- Blank bytes are cut off first, and bytes that are no text count as unreadable.
  rw [document_eq] at h
  split at h
  · cases h
  · cases htext : readText (trimBlankBytes bytes) with
    | error trouble' =>
        rw [htext] at h
        cases h
        rcases (readText_eq_error htext).1 with ⟨refusal, rfl⟩
        exact Or.inl rfl
    | ok cs =>
        rw [htext] at h
        refine (readDocument_error h).imp_right fun hlimit => ⟨cs, ?_, hlimit⟩
        exact holdsText_of_trim (readText_eq_ok.1 htext)

/-! ## Exchanges -/

/-- The troubles that are not reported as failures of the service, each with the exchanges that
    it comes from. -/
inductive Escapes : Exchange → Trouble → Prop where
  /-- The transport breaks down in a way that is not its own. -/
  | notSent (text : String) : Escapes (.failed (.system text)) (.system text)
  | notReceived (status : Int) (text : String) :
    Escapes (.answered status (.error (.system text))) (.system text)
  /-- There is no document, and the body that should say why is no text. -/
  | notText {status : Int} {bytes : List UInt8} (refusal : Utf8.Refusal)
    (hstatus : status ≠ okStatus) (hbytes : ∀ text, bytes ≠ Utf8.encode text) :
    Escapes (.answered status (.ok bytes)) (.notText refusal)
  /-- The text has too many digits in a row. -/
  | longInteger {bytes : List UInt8} {cs : List Char} (digits : Nat) (hbytes : HoldsText bytes cs)
    (hlong : Json.LongRun Json.integerDigitLimit cs) :
    Escapes (.answered okStatus (.ok bytes)) (.longInteger digits)
  /-- The text opens too many arrays and objects. -/
  | outOfRoom {bytes : List UInt8} {cs : List Char} (hbytes : HoldsText bytes cs)
    (hdeep : nestingLimit < cs.countP Json.opensNesting) :
    Escapes (.answered okStatus (.ok bytes)) .outOfRoom

/-- A trouble is reported as a failure of the service. -/
def IsFailure (trouble : Trouble) : Prop :=
  ∃ message status details, trouble = .failure (.service message status details)

variable {s : Settings} {stage : Stage} {code : String} {exchange : Exchange} {status : Int}

/-- A fault of the transport is reported, and one of the system around it escapes. -/
theorem result_broken (s : Settings) (fault : TransportFault) :
    ∃ trouble, (broken s fault : Traced Json).result = .error trouble ∧
      (IsFailure trouble ∨ ∃ text, fault = .system text ∧ trouble = .system text) := by
  cases fault with
  | connection text => exact ⟨_, rfl, Or.inl ⟨_, _, _, rfl⟩⟩
  | timeout => exact ⟨_, rfl, Or.inl ⟨_, _, _, rfl⟩⟩
  | system text => exact ⟨_, rfl, Or.inr ⟨text, rfl, rfl⟩⟩

/-- An accepted answer gives its document. -/
theorem result_accepted_eq_ok : (accepted bytes).result = .ok j ↔ document bytes = .ok j := by
  unfold accepted
  split
  · rename_i hdocument
    rw [hdocument]
    rfl
  · rename_i hdocument
    rw [hdocument]
    split
    · constructor <;> intro h <;> cases h
    · constructor <;> intro h <;> cases h

/-- An accepted answer without a document is reported, or its text is past a limit. -/
theorem result_accepted_eq_error (h : (accepted bytes).result = .error trouble) :
    IsFailure trouble ∨ document bytes = .error trouble ∧ isUnreadable trouble = false := by
  unfold accepted at h
  split at h
  · cases h
  · rename_i hdocument
    split at h
    · cases h
      exact Or.inl ⟨_, _, _, rfl⟩
    · rename_i hreadable
      cases h
      exact Or.inr ⟨hdocument, Bool.eq_false_iff.2 hreadable⟩

/-- A declined answer is reported, or its body is no text. -/
theorem result_declined (status : Int) (bytes : List UInt8) :
    ∃ trouble, (declined status bytes).result = .error trouble ∧
      (IsFailure trouble ∨ readText bytes = .error trouble) := by
  unfold declined
  cases readText bytes with
  | ok cs => exact ⟨_, rfl, Or.inl ⟨_, _, _, rfl⟩⟩
  | error trouble => exact ⟨trouble, rfl, Or.inr rfl⟩

-- The request is posted without trouble of its own, so what comes of it is up to the exchange.
theorem result_fetch_declined (hstatus : status ≠ okStatus) (bytes : List UInt8) :
    (fetch s stage code (.answered status (.ok bytes))).result =
      (declined status bytes).result := by
  simp only [fetch, if_neg hstatus]
  rfl

/-- The body of an answer without a document must be a text. -/
theorem fetch_declined_notText (hstatus : status ≠ okStatus)
    (hbytes : ∀ text, bytes ≠ Utf8.encode text) :
    ∃ refusal, (fetch s stage code (.answered status (.ok bytes))).result =
      .error (.notText refusal) := by
  rw [result_fetch_declined hstatus, declined]
  cases htext : readText bytes with
  | ok cs => exact absurd (readText_eq_ok.1 htext) (hbytes _)
  | error trouble =>
      rcases (readText_eq_error htext).1 with ⟨refusal, rfl⟩
      exact ⟨refusal, rfl⟩

/-! ## What is fetched -/

/-- An answer has a document only if its whole body came, with the good status. -/
theorem fetch_eq_ok : (fetch s stage code exchange).result = .ok j ↔
    ∃ bytes, exchange = .answered okStatus (.ok bytes) ∧ document bytes = .ok j := by
  constructor
  · intro h
    cases exchange with
    | failed fault =>
        rcases result_broken s fault with ⟨_, hresult, _⟩
        cases h.symm.trans hresult
    | answered status body =>
        cases body with
        | error fault =>
            rcases result_broken s fault with ⟨_, hresult, _⟩
            cases h.symm.trans hresult
        | ok bytes =>
            -- The whole body came, and the status says what is made of it.
            -- Only with the good status is the body read as a document.
            by_cases hstatus : status = okStatus
            · subst hstatus
              exact ⟨bytes, rfl, result_accepted_eq_ok.1 h⟩
            · rcases result_declined status bytes with ⟨_, hresult, _⟩
              cases (h.symm.trans (result_fetch_declined hstatus bytes)).trans hresult
  · rintro ⟨bytes, rfl, hdocument⟩
    exact result_accepted_eq_ok.2 hdocument

/-- Without a document there is a failure of the service or a trouble that escapes. -/
theorem fetch_eq_error (h : (fetch s stage code exchange).result = .error trouble) :
    IsFailure trouble ∨ Escapes exchange trouble := by
  cases exchange with
  | failed fault =>
      rcases result_broken s fault with ⟨_, hresult, htrouble⟩
      cases h.symm.trans hresult
      refine htrouble.imp_right ?_
      rintro ⟨text, rfl, rfl⟩
      exact .notSent text
  | answered status body =>
      cases body with
      | error fault =>
          rcases result_broken s fault with ⟨_, hresult, htrouble⟩
          cases h.symm.trans hresult
          refine htrouble.imp_right ?_
          rintro ⟨text, rfl, rfl⟩
          exact .notReceived status text
      | ok bytes =>
          by_cases hstatus : status = okStatus
          · subst hstatus
            refine (result_accepted_eq_error h).imp_right fun ⟨hdocument, hreadable⟩ => ?_
            rcases document_error hdocument with hunreadable | ⟨cs, hcs, hlimit⟩
            · cases hreadable.symm.trans hunreadable
            · rcases hlimit with ⟨⟨digits, rfl⟩, hlong⟩ | ⟨rfl, hdeep⟩
              · exact .longInteger digits hcs hlong
              · exact .outOfRoom hcs hdeep
          · rcases result_declined status bytes with ⟨_, hresult, htrouble⟩
            cases (h.symm.trans (result_fetch_declined hstatus bytes)).trans hresult
            refine htrouble.imp_right fun htext => ?_
            rcases readText_eq_error htext with ⟨⟨refusal, rfl⟩, hbytes⟩
            exact .notText refusal hstatus hbytes

/-- A document is fetched exactly if the answer came with the good status and its body holds the
    document, where a body of white space holds the null value. Anything else is reported as a
    failure of the service, unless it is one of the troubles that escape. -/
theorem document_or_failure (s : Settings) (stage : Stage) (code : String) (exchange : Exchange) :
    (∀ j, (fetch s stage code exchange).result = .ok j ↔ ∃ bytes,
      exchange = .answered okStatus (.ok bytes) ∧ (Blank bytes ∧ j = .null ∨ Holds bytes j)) ∧
    (∀ trouble, (fetch s stage code exchange).result = .error trouble →
      IsFailure trouble ∨ Escapes exchange trouble) ∧
    ∀ status bytes, exchange = .answered status (.ok bytes) → status ≠ okStatus →
      (∀ text, bytes ≠ Utf8.encode text) →
      ∃ refusal, (fetch s stage code exchange).result = .error (.notText refusal) := by
  refine ⟨fun j => ?_, fun _ => fetch_eq_error, ?_⟩
  · simp only [fetch_eq_ok, document_eq_ok]
  · rintro status bytes rfl hstatus hbytes
    exact fetch_declined_notText hstatus hbytes

/-- An answer that reports a defect of the server with a body that is no text. -/
theorem body_of_no_text_escapes :
    (fetch .default .reader "1" (.answered 500 (.ok [0xff]))).result =
      .error (.notText ⟨0xff, 0, 1, .invalidStart⟩) := by
  rw [result_fetch_declined (by decide), declined, readText, Utf8.decode, Utf8.decodeFrom]
  rfl

end Service

end StageTree
