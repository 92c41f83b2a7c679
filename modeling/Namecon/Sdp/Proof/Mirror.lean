import Namecon.Sdp.Proof.Answer

/-!
# The answer mirrors the offer

`blocks_answer` and `filter_answerBlock` say which a=ssrc lines stand in which section of the text
of an answer. `answer_mirrors_offer` is the law: the sections of the offer come back, with their
directions reversed, and an SSRC is announced where the browser wants to receive a mapped mid and
nowhere else.
-/

namespace Namecon.SdpParser

open Lines

variable {p : SdpParser} {sec : MediaSection} {line : Text}

/-! ## Where the a=ssrc lines stand -/

/-- The line opens a section. -/
def isMediaLine (line : Text) : Bool := starts "m=" line

/-- The line tells of an SSRC. -/
def isSsrcLine (line : Text) : Bool := starts "a=ssrc" line

theorem starts_crlf_false {k k' : String} (hk : k'.toList <+: line)
    (hc : Clash k.toList k'.toList) : starts k (crlf line) = false :=
  Bool.eq_false_iff.2 fun hs =>
    hc.not_prefix' (hk.trans (List.prefix_append line _)) ((starts_iff k _).1 hs)

theorem isMediaLine_mediaLine (sec : MediaSection) : isMediaLine (crlf (mediaLine sec)) = true := by
  rw [isMediaLine, starts_iff, crlf, mediaLine, List.append_assoc, List.append_assoc,
    List.append_assoc]
  exact List.prefix_append _ _

/-- A line of the header is neither an m= nor an a=ssrc line. -/
theorem headerLine_plain (h : line ∈ p.headerLines) :
    isMediaLine (crlf line) = false ∧ isSsrcLine (crlf line) = false := by
  have hclash : ∀ k ∈ headerStarts,
      Clash "m=".toList k.toList ∧ Clash "a=ssrc".toList k.toList := by
    decide
  obtain ⟨k, hk, hkl⟩ := headerLines_starts h
  exact ⟨starts_crlf_false hkl (hclash k hk).1, starts_crlf_false hkl (hclash k hk).2⟩

/-- So is a line of a section between its m= line and its a=ssrc lines. -/
theorem sectionLine_plain (hsec : CleanSection sec)
    (h : line ∈ p.transportLines sec ++ sec.codecLines) :
    isMediaLine (crlf line) = false ∧ isSsrcLine (crlf line) = false := by
  have hclash : ∀ k ∈ transportStarts ++ codecKeywords,
      Clash "m=".toList k.toList ∧ Clash "a=ssrc".toList k.toList := by decide
  have hstart : ∃ k ∈ transportStarts ++ codecKeywords, k.toList <+: line := by
    rcases List.mem_append.1 h with h | h
    · obtain ⟨k, hk, hkl⟩ := transportLines_starts h
      exact ⟨k, List.mem_append_left _ hk, hkl⟩
    · obtain ⟨k, hk, hkl⟩ := (hsec.codec line h).1.keyword
      exact ⟨k, List.mem_append_right _ hk, hkl⟩
  obtain ⟨k, hk, hkl⟩ := hstart
  exact ⟨starts_crlf_false hkl (hclash k hk).1, starts_crlf_false hkl (hclash k hk).2⟩

theorem ssrcLine_marked (h : line ∈ p.expectedSsrc sec) :
    isMediaLine (crlf line) = false ∧ isSsrcLine (crlf line) = true := by
  have hkl := expectedSsrc_starts h
  refine ⟨starts_crlf_false hkl (by decide), ?_⟩
  rw [isSsrcLine, starts_iff]
  have hpre : "a=ssrc".toList <+: "a=ssrc:".toList := by decide
  exact (hpre.trans hkl).trans (List.prefix_append line _)

theorem attributeLine_not_media (hsec : CleanSection sec) (h : line ∈ p.attributeLines sec) :
    isMediaLine (crlf line) = false := by
  rcases List.mem_append.1 h with h | h
  · exact (sectionLine_plain hsec h).1
  · exact (ssrcLine_marked h).1

/-- The lines of the answer to `sec`, as they stand in the text. -/
def answerBlock (p : SdpParser) (sec : MediaSection) : List Text :=
  crlf (mediaLine sec) :: (p.attributeLines sec).map crlf

theorem answerLines_crlf (p : SdpParser) : p.answerLines.map crlf =
    p.headerLines.map crlf ++ p.sections.flatMap p.answerBlock := by
  rw [answerLines, List.map_append, List.map_flatMap]
  rfl

theorem blocks_answer (hclean : p.Clean) :
    blocks isMediaLine (p.answerLines.map crlf) = p.sections.map p.answerBlock := by
  have hheader : ∀ l ∈ p.headerLines.map crlf, isMediaLine l = false := by
    intro l hl
    obtain ⟨line, hline, rfl⟩ := List.mem_map.1 hl
    exact (headerLine_plain hline).1
  rw [answerLines_crlf, blocks_append_of_none hheader]
  refine blocks_flatMap (fun sec _ => isMediaLine_mediaLine sec) fun sec hsec l hl => ?_
  obtain ⟨line, hline, rfl⟩ := List.mem_map.1 hl
  exact attributeLine_not_media (hclean sec hsec) hline

theorem filter_answerBlock (hsec : CleanSection sec) :
    (p.answerBlock sec).filter isSsrcLine = (p.expectedSsrc sec).map crlf := by
  have hmedia : ¬ isSsrcLine (crlf (mediaLine sec)) = true := fun hs => by
    have hm := isMediaLine_mediaLine sec
    rw [isMediaLine, starts_iff] at hm
    rw [isSsrcLine, starts_iff] at hs
    have hclash : Clash "a=ssrc".toList "m=".toList := by decide
    exact hclash.not_prefix' hm hs
  have hplain : ((p.transportLines sec ++ sec.codecLines).map crlf).filter isSsrcLine = [] := by
    apply List.filter_eq_nil_iff.2
    intro l hl
    obtain ⟨line, hline, rfl⟩ := List.mem_map.1 hl
    exact Bool.eq_false_iff.1 (sectionLine_plain hsec hline).2
  have hssrc : ((p.expectedSsrc sec).map crlf).filter isSsrcLine =
      (p.expectedSsrc sec).map crlf := by
    apply List.filter_eq_self.2
    intro l hl
    obtain ⟨line, hline, rfl⟩ := List.mem_map.1 hl
    exact (ssrcLine_marked hline).2
  rw [answerBlock, List.filter_cons_of_neg hmedia, attributeLines, List.map_append,
    List.filter_append, hplain, hssrc, List.nil_append]

/-! ## The law -/

/-- The other side's view of a direction. -/
def Direction.reverse : Direction → Direction
  | .sendrecv => .sendrecv
  | .sendonly => .recvonly
  | .recvonly => .sendonly
  | .inactive => .inactive

/-- The section `answer` answers the section `offer`; no direction means sendrecv. -/
structure Mirrors (offer answer : MediaSection) : Prop where
  type : answer.type = offer.type
  mid : answer.mid = offer.mid
  ptList : answer.ptList = offer.ptList
  codecLines : answer.codecLines = offer.codecLines
  direction : answer.direction = some (Direction.reverse (offer.direction.getD .sendrecv))

/-- `block`, the lines of the answer to `offer`, has the a=ssrc lines of the SSRC of its mid if the
browser wants to receive and the mid is mapped, and no a=ssrc line otherwise. -/
structure Announces (p : SdpParser) (offer : MediaSection) (block : List Text) : Prop where
  announced : ∀ ssrc, offer.direction = some .recvonly → p.midSsrc offer.mid = some ssrc →
    block.filter isSsrcLine = (ssrcLines ssrc).map crlf
  silent : offer.direction ≠ some .recvonly ∨ p.midSsrc offer.mid = none →
    block.filter isSsrcLine = []

/-- `answer` is what `p` answers an offer that leaves it in `p'`, and `q` is what a new parser reads
in it. -/
structure AnswerOf (p p' : SdpParser) (answer : Text) (q : SdpParser) : Prop where
  parsed : ({ statics := p'.statics } : SdpParser).parseOffer answer = .ok (q, true)
  mirrors : List.Forall₂ Mirrors p'.sections q.sections
  announces : List.Forall₂ (Announces p) p'.sections (blocks isMediaLine (lines '\n' answer))
  header : ∀ line ∈ (lines '\n' answer).takeWhile fun l => !isMediaLine l, isSsrcLine line = false

theorem mirrors_mirror (sec : MediaSection) : Mirrors sec (mirror sec) := by
  refine ⟨rfl, rfl, rfl, rfl, ?_⟩
  show some (answerDirection sec.direction) = _
  cases sec.direction with
  | none => rfl
  | some d => cases d <;> rfl

theorem announces_answerBlock {p' : SdpParser} (hsame : SameServer p p') (hsec : CleanSection sec) :
    Announces p sec (p'.answerBlock sec) where
  announced ssrc hd hm := by
    rw [filter_answerBlock hsec, expectedSsrc, if_pos hd, hsame.midSsrc, hm]
    rfl
  silent h := by
    rw [filter_answerBlock hsec, expectedSsrc, hsame.midSsrc]
    rcases h with hd | hm
    · rw [if_neg hd]
      rfl
    · split
      · rw [hm]
        rfl
      · rfl

theorem sections_of_accepted {p' : SdpParser} {offer : Text}
    (h : p.parseOffer offer = .ok (p', true)) : p'.sections ≠ [] := by
  obtain ⟨-, hok⟩ := parseOffer_returned h
  exact (of_decide_eq_true hok.symm).2.2

/-- **The answer mirrors the offer.** -/
theorem answer_mirrors_offer {p p' : SdpParser} {offer : Text} (hp : CleanServer p)
    (hnamed : NamesTypes offer) (h : p.parseOffer offer = .ok (p', true)) :
    ∃ answer q, p.generateAnswer offer = .ok (p', answer) ∧ AnswerOf p p' answer q := by
  obtain ⟨hclean, hsame⟩ := parseOffer_clean hnamed h
  have hp' := hp.of_same hsame
  obtain ⟨q, hq, hread⟩ := parseOffer_answerText hp' hclean (sections_of_accepted h) p'.statics
  have hgen : p.generateAnswer offer = .ok (p', p'.answerText) := by rw [generateAnswer, h]
  refine ⟨p'.answerText, q, hgen, hq, ?_, ?_, ?_⟩
  · rw [hread]
    exact List.forall₂_map_right_iff.2 (List.forall₂_same.2 fun sec _ => mirrors_mirror sec)
  · rw [lines_answerText hp' hclean, blocks_answer hclean]
    exact List.forall₂_map_right_iff.2
      (List.forall₂_same.2 fun sec hsec => announces_answerBlock hsame (hclean sec hsec))
  · have hheader : ∀ l ∈ p'.headerLines.map crlf, isMediaLine l = false ∧ isSsrcLine l = false := by
      intro l hl
      obtain ⟨line, hline, rfl⟩ := List.mem_map.1 hl
      exact headerLine_plain hline
    have hbefore : (p'.headerLines.map crlf ++ p'.sections.flatMap p'.answerBlock).takeWhile
        (fun l => !isMediaLine l) = p'.headerLines.map crlf :=
      takeWhile_append_blocks (fun sec _ => isMediaLine_mediaLine sec) fun l hl => (hheader l hl).1
    rw [lines_answerText hp' hclean, answerLines_crlf, hbefore]
    exact fun l hl => (hheader l hl).2

/-- A server that has an SSRC for the mid 0. -/
def sampleServer : SdpParser :=
  (({} : SdpParser).setServerInfo "10.0.0.1".toList 10000 "uf".toList "pw".toList "AA".toList
    ).setMidSsrcMap fun mid => if mid = "0".toList then some 7 else none

/-- An offer to receive one video and to exchange audio, under a mid the server has no SSRC for. -/
def sampleOffer : Text :=
  ("a=ice-ufrag:u\r\na=fingerprint:sha-256 F\r\nm=video 9 RTP 96\r\n a=mid:0\r\n" ++
    "a=recvonly\r\na=rtpmap:96 VP8/90000\r\nm=audio 9 RTP 111\r\na=mid:1\r\na=sendrecv\r\n" ++
    "a=rtpmap:111 opus/48000/2\r\n").toList

set_option maxRecDepth 2000 in
theorem answer_mirrors_offer_sample : ∃ p' answer q,
    sampleServer.parseOffer sampleOffer = .ok (p', true) ∧
      sampleServer.generateAnswer sampleOffer = .ok (p', answer) ∧
        AnswerOf sampleServer p' answer q := by
  have hclean : CleanServer sampleServer := ⟨by decide, by decide, by decide, by decide⟩
  have hparse : sampleServer.parseOffer sampleOffer = .ok ({ sampleServer with
      sections := [⟨"video".toList, "0".toList, some .recvonly, "96".toList,
          ["a=rtpmap:96 VP8/90000".toList]⟩,
        ⟨"audio".toList, "1".toList, some .sendrecv, "111".toList,
          ["a=rtpmap:111 opus/48000/2".toList]⟩]
      iceUfrag := "u".toList
      fingerprint := "F".toList
      statics := { videoPTs := {96}, audioPTs := {111} } }, true) := rfl
  obtain ⟨answer, q, h⟩ := answer_mirrors_offer hclean (by decide) hparse
  exact ⟨_, answer, q, hparse, h⟩

end Namecon.SdpParser
