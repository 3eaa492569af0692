/-
  File:      BoostAsioWebServer/Services/ReplyDecoder.lean
  Subject:   READING A REPLY BACK.

  `decodeReply` is a reference decoder, written without `buildBuffer`: a status line up to the
  first CRLF, header lines up to the first empty one, each cut at its first `": "`, and the rest
  of the text as the content. A reply with clean headers and a status the adapter has a text for
  is read back exactly, and no other such reply has its text (`reply_survives`).
-/
import BoostAsioWebServer.Services.ReplyServices

namespace BoostAsioWebServer

open ByteText

/-! ## 1. The decoder -/

/-- The status codes of HTTP. -/
def statusCodes : List (Nat × StatusType) :=
  [(200, .ok), (201, .created), (202, .accepted), (204, .noContent), (207, .multiStatus),
    (300, .multipleChoices), (301, .movedPermanently), (302, .movedTemporarily),
    (304, .notModified), (400, .badRequest), (401, .unauthorized), (403, .forbidden),
    (404, .notFound), (408, .requestTimeout), (500, .internalServerError), (501, .notImplemented),
    (502, .badGateway), (503, .serviceUnavailable)]

/-- The status of a status line: the code is its second word. -/
def decodeStatus (line : Bytes) : Option StatusType :=
  let code := textBefore (chr ' ') (line.drop ((textBefore (chr ' ') line).length + 1))
  (statusCodes.find? fun entry => entry.1 = decimalValue code).map (·.2)

/-- The name and the value of a header line. -/
def decodeHeader (line : Bytes) : Option (Bytes × Bytes) :=
  (find (ascii ": ") line).map fun i => (line.take i, line.drop (i + 2))

/-- The header map of some header lines; `none` where one is no header. -/
def decodeHeaders (lines : List Bytes) : Option HeaderMap :=
  (lines.mapM decodeHeader).map SortedMap.ofList

/-- A reply read from its text. -/
def decodeReply (buffer : Bytes) : Option Reply := do
  let (statusLine, rest) ← readLine buffer
  let status ← decodeStatus statusLine
  let (headerLines, content) ← readSection rest
  let headers ← decodeHeaders headerLines
  return ⟨status, headers, content⟩

/-! ## 2. It reads back what was written -/

theorem decodeStatus_translate {status : StatusType} {line : Bytes}
    (h : translateStatusToString status = some line) : decodeStatus line = some status := by
  cases status
  case other => cases h
  all_goals
    obtain rfl := Option.some.inj h
    decide +kernel

theorem decodeHeader_headerLine {header : Bytes × Bytes} (h : CleanHeader header) :
    decodeHeader (headerLine header) = some header := by
  have hfind : find (ascii ": ") (headerLine header) = some header.1.length :=
    find_behind h.1 [chr ' '] header.2
  have htake : (headerLine header).take header.1.length = header.1 := by
    rw [headerLine, List.append_assoc, List.take_left]
  have hlen : (header.1 ++ ascii ": ").length = header.1.length + 2 := List.length_append
  have hdrop : (headerLine header).drop (header.1.length + 2) = header.2 := by
    rw [headerLine, ← hlen, List.drop_left]
  rw [decodeHeader, hfind, Option.map_some, htake, hdrop]

/-- The header lines of a clean reply give its header map back. -/
theorem decodeHeaders_lines {reply : Reply} (hclean : CleanReply reply) :
    decodeHeaders (reply.headers.entries.map headerLine) = some reply.headers := by
  have hlines (es : List (Bytes × Bytes)) (hes : ∀ header ∈ es, CleanHeader header) :
      (es.map headerLine).mapM decodeHeader = some es := by
    induction es with
    | nil => rfl
    | cons header es ih =>
      rw [List.map_cons, List.mapM_cons, decodeHeader_headerLine (hes header List.mem_cons_self),
        ih fun x hx => hes x (List.mem_cons_of_mem _ hx)]
      rfl
  rw [decodeHeaders, hlines _ hclean, Option.map_some, SortedMap.ofList_entries]

/-- **The decoder reads a reply from its text.** -/
theorem decodeReply_buildBuffer {reply : Reply} {buffer : Bytes} (hclean : CleanReply reply)
    (h : buildBuffer reply = some buffer) : decodeReply buffer = some reply := by
  rw [buildBuffer_eq] at h
  obtain ⟨line, hline, rfl⟩ := Option.map_eq_some_iff.mp h
  obtain ⟨-, hcr, -⟩ := translateStatusToString_clean hline
  have hsplit : sectionText (line :: reply.headers.entries.map headerLine) ++ reply.content =
      line ++ crlf ++ (sectionText (reply.headers.entries.map headerLine) ++ reply.content) := by
    simp only [sectionText, List.flatMap_cons, List.append_assoc]
  have hsection : readSection
      (sectionText (reply.headers.entries.map headerLine) ++ reply.content) =
      some (reply.headers.entries.map headerLine, reply.content) := by
    refine readSection_lines (fun l hl => ?_) reply.content
    obtain ⟨header, hmem, rfl⟩ := List.mem_map.mp hl
    obtain ⟨hne, hcr, -⟩ := headerLine_clean (hclean header hmem)
    exact ⟨hne, hcr⟩
  rw [hsplit, decodeReply, readLine_append hcr]
  simp only [Option.bind_eq_bind, Option.bind_some, decodeStatus_translate hline, hsection,
    decodeHeaders_lines hclean]
  rfl

/-! ## 3. The theorem -/

/-- **A reply survives serialisation**: it has a text, the decoder recovers exactly its status, its
    header map and its content from it, and no other clean reply has the same text. -/
theorem reply_survives {reply : Reply} (hclean : CleanReply reply)
    (hstatus : translateStatusToString reply.status ≠ none) :
    ∃ buffer, buildBuffer reply = some buffer ∧ decodeReply buffer = some reply ∧
      ∀ reply', CleanReply reply' → buildBuffer reply' = some buffer → reply' = reply := by
  obtain ⟨line, hline⟩ := Option.ne_none_iff_exists'.mp hstatus
  have hbuffer : ∃ buffer, buildBuffer reply = some buffer := by
    rw [buildBuffer, hline]
    exact ⟨_, rfl⟩
  obtain ⟨buffer, hbuffer⟩ := hbuffer
  have hdecode := decodeReply_buildBuffer hclean hbuffer
  refine ⟨buffer, hbuffer, hdecode, fun reply' hclean' hbuffer' => ?_⟩
  have hdecode' := decodeReply_buildBuffer hclean' hbuffer'
  rw [hdecode] at hdecode'
  exact (Option.some.inj hdecode').symm

/-- A reply with an empty name, an empty value and a content that has an empty line in it. -/
def trickyReply : Reply where
  status := .notFound
  headers := ((SortedMap.empty.insert [] (ascii ": ")).insert (ascii "Accept") []).insert
    (ascii " ") (ascii "a: b")
  content := ascii "A: b\r\n\r\nc"

/-- It is read back. -/
theorem reply_survives_tricky :
    ∃ buffer, buildBuffer trickyReply = some buffer ∧ decodeReply buffer = some trickyReply := by
  have hclean : CleanReply trickyReply := by
    have hall : ∀ header ∈ [([], ascii ": "), (ascii " ", ascii "a: b"), (ascii "Accept", [])],
        CleanHeader header := by
      intro header hmem
      simp only [List.mem_cons, List.not_mem_nil, or_false] at hmem
      rcases hmem with rfl | rfl | rfl
      all_goals exact ⟨by decide, by decide, by decide⟩
    exact hall
  obtain ⟨buffer, hbuffer, hdecode, -⟩ := reply_survives hclean (Option.some_ne_none _)
  exact ⟨buffer, hbuffer, hdecode⟩

end BoostAsioWebServer
