import Namecon.Sdp.Proof.Offer

/-!
# Reading an answer back

`generateAnswer` writes lines, and `parseOffer` reads lines.

* `step_media` to `step_codec`: what each line of an answer does to a parser that reads it; the
  other lines start with no keyword (`headerLines_starts`, `transportLines_starts`,
  `expectedSsrc_starts`) and do nothing. `parses_section` puts the steps together for one section of
  the answer, `parses_answer` for all of them.
* `lines_answerText`: the lines of the text are the lines that were written, so nothing in the offer
  can start a line of its own.
* `parseOffer_answerText`: a new parser reads the text of the answer and finds the sections of the
  offer, each `mirror`ed.
-/

namespace Namecon.SdpParser

open Lines

variable {p q : SdpParser} {secs : List MediaSection} {sec : MediaSection} {u f : Prop}
  {pre line v x : Text}

/-! ## The lines of an answer -/

/-- The sections are `secs`; there are credentials if `u`, and a fingerprint if `f`. -/
structure At (secs : List MediaSection) (u f : Prop) (q : SdpParser) : Prop where
  sections : q.sections = secs
  ufrag : u → q.iceUfrag ≠ []
  fingerprint : f → q.fingerprint ≠ []

/-- The line starts with something, and not with a blank. -/
def Solid (line : Text) : Prop := line.head?.any (fun c => c != ' ' && c != '\t') = true

instance (line : Text) : Decidable (Solid line) := inferInstanceAs (Decidable (_ = true))

theorem Solid.append (h : Solid pre) (x : Text) : Solid (pre ++ x) := by
  cases pre with
  | nil => cases h
  | cons a t => exact h

theorem Solid.of_prefix (h : Solid pre) (hl : pre <+: line) : Solid line := by
  obtain ⟨x, rfl⟩ := hl
  exact h.append x

theorem Solid.parseLine (h : Solid line) : q.parseLine (line ++ ['\r']) = q.parseTrimmed line := by
  cases hc : line.head? with
  | none => rw [Solid, hc] at h; cases h
  | some c =>
    rw [Solid, hc, Option.any_some, Bool.and_eq_true, bne_iff_ne, bne_iff_ne] at h
    exact parseLine_crlf hc h

theorem parseLine_inert (hs : Solid pre) (h : ClashAll keywords pre) (x : Text) :
    q.parseLine (pre ++ x ++ ['\r']) = .ok q := by
  rw [(hs.append x).parseLine]
  exact parseTrimmed_inert (h.noneStarts (List.prefix_append pre x))

theorem step_ufrag (hv : v ≠ []) (h : At secs u f q) :
    ∃ q', q.parseLine ("a=ice-ufrag:".toList ++ v ++ ['\r']) = .ok q' ∧ At secs True f q' := by
  have hsolid : Solid ("a=ice-ufrag:".toList ++ v) := rfl
  have hm : ¬ starts "m=" ("a=ice-ufrag:".toList ++ v) = true := fun hs =>
    Clash.not_prefix (by decide) v ((starts_iff _ _).1 hs)
  have hval : extractAttr ("a=ice-ufrag:".toList ++ v) "ice-ufrag" = v :=
    extractAttr_value "ice-ufrag" v
  rw [hsolid.parseLine, parseTrimmed, if_neg hm, hval, if_pos hv]
  refine ⟨_, rfl, ?_⟩
  split
  · exact ⟨h.sections, fun _ => hv, h.fingerprint⟩
  · next hne => exact ⟨h.sections, fun _ => hne, h.fingerprint⟩

theorem step_pwd (hv : v ≠ []) (h : At secs u f q) :
    ∃ q', q.parseLine ("a=ice-pwd:".toList ++ v ++ ['\r']) = .ok q' ∧ At secs u f q' := by
  have hsolid : Solid ("a=ice-pwd:".toList ++ v) := rfl
  have hm : ¬ starts "m=" ("a=ice-pwd:".toList ++ v) = true := fun hs =>
    Clash.not_prefix (by decide) v ((starts_iff _ _).1 hs)
  have hu : extractAttr ("a=ice-pwd:".toList ++ v) "ice-ufrag" = [] :=
    extractAttr_none (Clash.not_prefix (by decide) v)
  have hval : extractAttr ("a=ice-pwd:".toList ++ v) "ice-pwd" = v := extractAttr_value "ice-pwd" v
  rw [hsolid.parseLine, parseTrimmed, if_neg hm, if_neg (not_not.2 hu), hval, if_pos hv]
  refine ⟨_, rfl, ?_⟩
  split
  · exact ⟨h.sections, h.ufrag, h.fingerprint⟩
  · exact h

theorem step_fingerprint (hv : v ≠ []) (h : At secs u f q) :
    ∃ q', q.parseLine ("a=fingerprint:sha-256 ".toList ++ v ++ ['\r']) = .ok q' ∧
      At secs u True q' := by
  have hsolid : Solid ("a=fingerprint:sha-256 ".toList ++ v) := rfl
  have hm : ¬ starts "m=" ("a=fingerprint:sha-256 ".toList ++ v) = true := fun hs =>
    Clash.not_prefix (by decide) v ((starts_iff _ _).1 hs)
  have hu : extractAttr ("a=fingerprint:sha-256 ".toList ++ v) "ice-ufrag" = [] :=
    extractAttr_none (Clash.not_prefix (by decide) v)
  have hp : extractAttr ("a=fingerprint:sha-256 ".toList ++ v) "ice-pwd" = [] :=
    extractAttr_none (Clash.not_prefix (by decide) v)
  have hval : extractAttr ("a=fingerprint:sha-256 ".toList ++ v) "fingerprint" =
      "sha-256 ".toList ++ v := extractAttr_value "fingerprint" ("sha-256 ".toList ++ v)
  have hne : "sha-256 ".toList ++ v ≠ [] := List.cons_ne_nil _ _
  have hhash : hashValue ("sha-256 ".toList ++ v) = v := rfl
  rw [hsolid.parseLine, parseTrimmed, if_neg hm, if_neg (not_not.2 hu), if_neg (not_not.2 hp), hval,
    if_pos hne, hhash]
  refine ⟨_, rfl, ?_⟩
  split
  · exact ⟨h.sections, h.ufrag, fun _ => hv⟩
  · next hne => exact ⟨h.sections, h.ufrag, fun _ => hne⟩

theorem getLast_at (h : At (secs ++ [sec]) u f q) : q.sections.getLast? = some sec := by
  rw [h.sections, List.getLast?_concat]

theorem At.setCurrent (h : At (secs ++ [sec]) u f q) (sec' : MediaSection) :
    At (secs ++ [sec']) u f (q.setCurrent sec') := by
  refine ⟨?_, h.ufrag, h.fingerprint⟩
  show q.sections.dropLast ++ [sec'] = secs ++ [sec']
  rw [h.sections, List.dropLast_concat]

theorem any_isSpace {t : Text} : t.any isSpace = false ↔ ∀ c ∈ t, isSpace c = false := by
  simp only [List.any_eq_false, Bool.not_eq_true]

theorem readMedia_mediaLine {type ptList : Text} (hne : type ≠ [])
    (hword : ∀ c ∈ type, isSpace c = false) :
    readMedia (type ++ " 9 UDP/TLS/RTP/SAVPF ".toList ++ ptList) = (type, ptList) := by
  have htype : readToken isSpace (type ++ " 9 UDP/TLS/RTP/SAVPF ".toList ++ ptList) =
      some (type, " 9 UDP/TLS/RTP/SAVPF ".toList ++ ptList) := by
    rw [List.append_assoc]
    exact readToken_append [] type _ (fun _ hc => (List.not_mem_nil hc).elim) hword hne rfl
  have hport : readToken isSpace (" 9 UDP/TLS/RTP/SAVPF ".toList ++ ptList) =
      some ("9".toList, " UDP/TLS/RTP/SAVPF ".toList ++ ptList) :=
    readToken_append [' '] "9".toList _ (List.all_eq_true.1 rfl) (any_isSpace.1 rfl) (by decide) rfl
  have hproto : readToken isSpace (" UDP/TLS/RTP/SAVPF ".toList ++ ptList) =
      some ("UDP/TLS/RTP/SAVPF".toList, ' ' :: ptList) :=
    readToken_append [' '] "UDP/TLS/RTP/SAVPF".toList ptList (List.all_eq_true.1 rfl)
      (any_isSpace.1 rfl) (by decide) rfl
  unfold readMedia
  rw [htype]
  dsimp only
  rw [hport]
  dsimp only
  rw [hproto]
  rfl

theorem step_media (htyped : sec.type ≠ []) (hword : ∀ c ∈ sec.type, isSpace c = false)
    (h : At secs u f q) : ∃ q', q.parseLine (mediaLine sec ++ ['\r']) = .ok q' ∧
      At (secs ++ [{ type := sec.type, ptList := sec.ptList }]) u f q' := by
  have hsolid : Solid (mediaLine sec) := rfl
  have hm : starts "m=" (mediaLine sec) = true := by
    rw [starts_iff, mediaLine, List.append_assoc, List.append_assoc]
    exact List.prefix_append _ _
  have hdrop : (mediaLine sec).drop 2 =
      sec.type ++ " 9 UDP/TLS/RTP/SAVPF ".toList ++ sec.ptList := by
    rw [mediaLine, List.append_assoc, List.append_assoc, List.append_assoc]
    rfl
  rw [hsolid.parseLine, parseTrimmed, if_pos hm, hdrop]
  refine ⟨_, rfl, ?_, h.ufrag, h.fingerprint⟩
  show q.sections ++ _ = _
  rw [h.sections, readMedia_mediaLine htyped hword]

theorem step_mid (hmid : sec.mid = []) (v : Text) (h : At (secs ++ [sec]) u f q) :
    ∃ q', q.parseLine ("a=mid:".toList ++ v ++ ['\r']) = .ok q' ∧
      At (secs ++ [{ sec with mid := v }]) u f q' := by
  have hsolid : Solid ("a=mid:".toList ++ v) := rfl
  have hclash : ClashAll sessionKeywords "a=mid:".toList := by decide
  have hses := hclash.noneStarts (List.prefix_append "a=mid:".toList v)
  have hval : extractAttr ("a=mid:".toList ++ v) "mid" = v := extractAttr_value "mid" v
  rw [hsolid.parseLine, parseTrimmed_session hses, getLast_at h]
  dsimp only
  unfold parseAttribute
  rw [hval]
  dsimp only
  by_cases hv : v = []
  · -- an empty mid is not read, and there is none to forget
    subst hv
    refine ⟨q, rfl, ?_⟩
    rw [← hmid]
    exact h
  · rw [if_pos hv]
    exact ⟨_, rfl, h.setCurrent _⟩

theorem step_direction (d : Direction) (h : At (secs ++ [sec]) u f q) :
    ∃ q', q.parseLine ("a=".toList ++ d.text ++ ['\r']) = .ok q' ∧
      At (secs ++ [{ sec with direction := some d }]) u f q' := by
  have hsolid : Solid ("a=".toList ++ d.text) := rfl
  have hses : NoneStarts sessionKeywords ("a=".toList ++ d.text) := by cases d <;> decide
  have hmid : extractAttr ("a=".toList ++ d.text) "mid" = [] := by cases d <;> rfl
  have hdir : readDirection ("a=".toList ++ d.text) = some d := by cases d <;> rfl
  rw [hsolid.parseLine, parseTrimmed_session hses, getLast_at h]
  dsimp only
  unfold parseAttribute
  rw [hmid, hdir]
  exact ⟨_, rfl, h.setCurrent _⟩

theorem step_codec {k : String} (hk : k ∈ codecKeywords) (hkl : k.toList <+: line)
    (hcodec : CodecLine sec.type line) (h : At (secs ++ [sec]) u f q) :
    ∃ q', q.parseLine (line ++ ['\r']) = .ok q' ∧
      At (secs ++ [{ sec with codecLines := sec.codecLines ++ [line] }]) u f q' := by
  have hclash : ∀ k ∈ codecKeywords, ClashAll sessionKeywords k.toList ∧
      ClashAll attributeKeywords k.toList ∧ Solid k.toList := by decide
  have hpush : At (secs ++ [{ sec with codecLines := sec.codecLines ++ [line] }]) u f
      (q.pushCodecLine sec line) := h.setCurrent _
  obtain ⟨hses, hatt, hsolid⟩ := hclash k hk
  rw [(hsolid.of_prefix hkl).parseLine, parseTrimmed_session (hses.noneStarts hkl), getLast_at h]
  dsimp only
  rw [parseAttribute_codec (hatt.noneStarts hkl)]
  by_cases hrtpmap : starts "a=rtpmap:" line = true
  · obtain ⟨statics, hr⟩ := Option.isSome_iff_exists.1 (hcodec.readable hrtpmap q.statics)
    rw [if_pos hrtpmap, parseRtpmap, hr]
    exact ⟨_, rfl, hpush.sections, hpush.ufrag, hpush.fingerprint⟩
  · rw [if_neg hrtpmap]
    by_cases hfb : starts "a=rtcp-fb:" line = true
    · rw [if_pos hfb]
      exact ⟨_, rfl, hpush⟩
    · have hfmtp : starts "a=fmtp:" line = true := by
        have hs := (starts_iff k line).2 hkl
        rcases List.mem_cons.1 hk with rfl | hk
        · exact absurd hs hrtpmap
        · rcases List.mem_cons.1 hk with rfl | hk
          · exact absurd hs hfb
          · rwa [List.mem_singleton.1 hk] at hs
      rw [if_neg hfb, if_pos hfmtp]
      exact ⟨_, rfl, hpush⟩

/-! ## Sections and answers -/

/-- `offer` as the answer to it is read. -/
def mirror (offer : MediaSection) : MediaSection :=
  { offer with direction := some (answerDirection offer.direction) }

/-- A server string that `setServerInfo` is given: not empty, and without white space. -/
def ServerWord (t : Text) : Prop := t ≠ [] ∧ ∀ c ∈ t, isSpace c = false

instance (t : Text) : Decidable (ServerWord t) :=
  decidable_of_iff (t ≠ [] ∧ t.any isSpace = false) (and_congr_right' any_isSpace)

/-- The four words of the server break no line of the answer. -/
structure CleanServer (p : SdpParser) : Prop where
  ip : ServerWord p.serverIp
  ufrag : ServerWord p.serverUfrag
  pwd : ServerWord p.serverPwd
  fingerprint : ServerWord p.serverFingerprint

theorem ServerWord.orDefault {t : Text} (h : ServerWord t) (d : String) :
    SdpParser.orDefault t d = t := if_neg h.1

theorem CleanServer.of_same {p' : SdpParser} (h : CleanServer p) (hs : SameServer p p') :
    CleanServer p' := by
  refine ⟨?_, ?_, ?_, ?_⟩
  · rw [hs.serverIp]; exact h.ip
  · rw [hs.serverUfrag]; exact h.ufrag
  · rw [hs.serverPwd]; exact h.pwd
  · rw [hs.serverFingerprint]; exact h.fingerprint

/-- What a line that has been written is read as. -/
def crlf (line : Text) : Text := line ++ ['\r']

theorem parses_codecLines (ls : List Text) (hls : ∀ l ∈ ls, CodecLine sec.type l) :
    Parses parseLine (ls.map crlf) (At (secs ++ [sec]) u f)
      (At (secs ++ [{ sec with codecLines := sec.codecLines ++ ls }]) u f) := by
  induction ls generalizing sec with
  | nil =>
    rw [List.append_nil]
    exact .nil
  | cons l ls ih =>
    obtain ⟨k, hk, hkl⟩ := (hls l List.mem_cons_self).keyword
    have hrest := @ih { sec with codecLines := sec.codecLines ++ [l] } fun l' hl' =>
      hls l' (List.mem_cons_of_mem l hl')
    rw [List.append_assoc] at hrest
    exact .cons (fun _ h => step_codec hk hkl (hls l List.mem_cons_self) h) hrest

/-! ## How the lines start -/

/-- How the lines before the first section start. -/
def headerStarts : List String := ["v=", "o=", "s=", "t=", "a=group:", "a=msid-", "a=ice-lite"]

/-- How the lines of a section start that are neither its m= line, nor codec lines, nor a=ssrc. -/
def transportStarts : List String :=
  ["c=", "a=ice-ufrag:", "a=ice-pwd:", "a=candidate:", "a=rtcp:", "a=fingerprint:", "a=setup:",
    "a=rtcp-mux", "a=mid:", "a=sendrecv", "a=sendonly", "a=recvonly", "a=inactive"]

theorem headerLines_starts (h : line ∈ p.headerLines) :
    ∃ k ∈ headerStarts, k.toList <+: line := by
  simp only [headerLines, List.mem_cons, List.not_mem_nil, or_false] at h
  rcases h with rfl | rfl | rfl | rfl | rfl | rfl | rfl
  · exact ⟨"v=", by decide, _, rfl⟩
  · exact ⟨"o=", by decide, _, rfl⟩
  · exact ⟨"s=", by decide, _, rfl⟩
  · exact ⟨"t=", by decide, _, rfl⟩
  · exact ⟨"a=group:", by decide, _, rfl⟩
  · exact ⟨"a=msid-", by decide, _, rfl⟩
  · exact ⟨"a=ice-lite", by decide, _, rfl⟩

theorem direction_starts (d : Direction) :
    ∃ k ∈ transportStarts, k.toList <+: "a=".toList ++ d.text := by
  cases d with
  | sendrecv => exact ⟨"a=sendrecv", by decide, _, rfl⟩
  | sendonly => exact ⟨"a=sendonly", by decide, _, rfl⟩
  | recvonly => exact ⟨"a=recvonly", by decide, _, rfl⟩
  | inactive => exact ⟨"a=inactive", by decide, _, rfl⟩

theorem transportLines_starts (h : line ∈ p.transportLines sec) :
    ∃ k ∈ transportStarts, k.toList <+: line := by
  simp only [transportLines, List.mem_cons, List.not_mem_nil, or_false] at h
  rcases h with rfl | rfl | rfl | rfl | rfl | rfl | rfl | rfl | rfl | rfl
  · exact ⟨"c=", by decide, _, rfl⟩
  · exact ⟨"a=ice-ufrag:", by decide, _, rfl⟩
  · exact ⟨"a=ice-pwd:", by decide, _, rfl⟩
  · exact ⟨"a=candidate:", by decide, _, rfl⟩
  · exact ⟨"a=rtcp:", by decide, _, rfl⟩
  · exact ⟨"a=fingerprint:", by decide, _, rfl⟩
  · exact ⟨"a=setup:", by decide, _, rfl⟩
  · exact ⟨"a=rtcp-mux", by decide, _, rfl⟩
  · exact ⟨"a=mid:", by decide, _, rfl⟩
  · exact direction_starts _

theorem ssrcLines_starts {ssrc : UInt32} (h : line ∈ ssrcLines ssrc) :
    "a=ssrc:".toList <+: line := by
  simp only [ssrcLines, List.mem_cons, List.not_mem_nil, or_false] at h
  rcases h with rfl | rfl | rfl | rfl <;> exact ⟨_, rfl⟩

theorem mem_expectedSsrc (h : line ∈ p.expectedSsrc sec) : ∃ ssrc, line ∈ ssrcLines ssrc := by
  unfold expectedSsrc at h
  split at h
  · cases hssrc : p.midSsrc sec.mid with
    | none => rw [hssrc] at h; cases h
    | some ssrc => rw [hssrc] at h; exact ⟨ssrc, h⟩
  · cases h

theorem expectedSsrc_starts (h : line ∈ p.expectedSsrc sec) : "a=ssrc:".toList <+: line := by
  obtain ⟨ssrc, h⟩ := mem_expectedSsrc h
  exact ssrcLines_starts h

theorem parseLine_of_starts {k : String} (hk : k.toList <+: line) (hs : Solid k.toList)
    (hc : ClashAll keywords k.toList) : q.parseLine (crlf line) = .ok q := by
  obtain ⟨x, rfl⟩ := hk
  exact parseLine_inert hs hc x

theorem parses_section (hp : CleanServer p) (hsec : CleanSection sec) :
    Parses parseLine ((mediaLine sec :: p.attributeLines sec).map crlf) (At secs u f)
      (At (secs ++ [mirror sec]) True True) := by
  have inert : ∀ (pre : Text) {P : SdpParser → Prop}, Solid pre → ClashAll keywords pre →
      ∀ x q, P q → ∃ q', q.parseLine (crlf (pre ++ x)) = .ok q' ∧ P q' :=
    fun pre _ hs hc x q h => ⟨q, parseLine_inert hs hc x, h⟩
  unfold attributeLines transportLines
  rw [hp.ip.orDefault, hp.ufrag.orDefault, hp.pwd.orDefault, hp.fingerprint.orDefault]
  simp only [List.map_cons, List.map_append, List.cons_append, List.nil_append]
  refine .cons (fun q h => step_media hsec.typed hsec.word h) ?_
  refine .cons (inert "c=".toList (by decide) (by decide) _) ?_
  refine .cons (fun q h => step_ufrag hp.ufrag.1 h) ?_
  refine .cons (fun q h => step_pwd hp.pwd.1 h) ?_
  refine .cons (inert "a=candidate:".toList (by decide) (by decide) _) ?_
  refine .cons (inert "a=rtcp:".toList (by decide) (by decide) _) ?_
  refine .cons (fun q h => step_fingerprint hp.fingerprint.1 h) ?_
  refine .cons (inert "a=setup:".toList (by decide) (by decide) _) ?_
  refine .cons (inert "a=rtcp-mux".toList (by decide) (by decide) _) ?_
  refine .cons (fun q h => step_mid rfl sec.mid h) ?_
  refine .cons (fun q h => step_direction (answerDirection sec.direction) h) ?_
  refine .append (parses_codecLines sec.codecLines fun l hl => (hsec.codec l hl).1) ?_
  refine .skip fun l hl q _ => ?_
  obtain ⟨line, hline, rfl⟩ := List.mem_map.1 hl
  exact parseLine_of_starts (expectedSsrc_starts hline) (by decide) (by decide)

theorem parses_header (p : SdpParser) (P : SdpParser → Prop) :
    Parses parseLine (p.headerLines.map crlf) P P := by
  have hinert : ∀ k ∈ headerStarts, Solid k.toList ∧ ClashAll keywords k.toList := by decide
  refine .skip fun l hl q _ => ?_
  obtain ⟨line, hline, rfl⟩ := List.mem_map.1 hl
  obtain ⟨k, hk, hkl⟩ := headerLines_starts hline
  exact parseLine_of_starts hkl (hinert k hk).1 (hinert k hk).2

/-- The answers to the sections `done` have been read. -/
def Answered (done : List MediaSection) (q : SdpParser) : Prop :=
  At (done.map mirror) (done ≠ []) (done ≠ []) q

theorem parses_answer (hp : CleanServer p) (hclean : p.Clean) :
    Parses parseLine (p.answerLines.map crlf) (Answered []) (Answered p.sections) := by
  have hsections : Parses parseLine
      (p.sections.flatMap fun sec => (mediaLine sec :: p.attributeLines sec).map crlf)
      (Answered []) (Answered p.sections) := by
    refine Parses.flatMap (I := Answered) (fun done sec hsec q h => ?_) []
    obtain ⟨q', hq', hAt⟩ := parses_section hp (hclean sec hsec) q h
    refine ⟨q', hq', ?_, fun _ => hAt.ufrag trivial, fun _ => hAt.fingerprint trivial⟩
    rw [List.map_append]
    exact hAt.sections
  rw [answerLines, List.map_append, List.map_flatMap]
  exact (parses_header p _).append hsections

/-! ## The text -/

theorem noLf_append {a b : Text} (ha : '\n' ∉ a) (hb : '\n' ∉ b) : '\n' ∉ a ++ b := fun h =>
  (List.mem_append.1 h).elim ha hb

theorem noLf_decimal (n : Nat) : '\n' ∉ decimal n := fun h =>
  absurd (Nat.isDigit_of_mem_toDigits (by decide) (by decide) h) (by decide)

theorem ServerWord.noLf {t : Text} (h : ServerWord t) : '\n' ∉ t := fun hmem =>
  absurd (h.2 _ hmem) (by decide)

theorem noLf_header (hp : CleanServer p) (hclean : p.Clean) (h : line ∈ p.headerLines) :
    '\n' ∉ line := by
  have hmids : '\n' ∉ p.sections.flatMap fun sec => ' ' :: sec.mid := by
    intro hmem
    obtain ⟨sec, hsec, hmem⟩ := List.mem_flatMap.1 hmem
    rcases List.mem_cons.1 hmem with he | hmem
    · exact absurd he (by decide)
    · exact (hclean sec hsec).mid hmem
  simp only [headerLines, hp.ip.orDefault, List.mem_cons, List.not_mem_nil, or_false] at h
  rcases h with rfl | rfl | rfl | rfl | rfl | rfl | rfl
  · decide
  · exact noLf_append (by decide) hp.ip.noLf
  · decide
  · decide
  · exact noLf_append (by decide) hmids
  · decide
  · decide

theorem noLf_media (h : CleanSection sec) : '\n' ∉ mediaLine sec := by
  have htype : '\n' ∉ sec.type := fun hmem => absurd (h.word _ hmem) (by decide)
  exact noLf_append (noLf_append (noLf_append (by decide) htype) (by decide)) h.ptList

theorem noLf_transport (hp : CleanServer p) (hsec : CleanSection sec)
    (h : line ∈ p.transportLines sec) : '\n' ∉ line := by
  simp only [transportLines, hp.ip.orDefault, hp.ufrag.orDefault, hp.pwd.orDefault,
    hp.fingerprint.orDefault, List.mem_cons, List.not_mem_nil, or_false] at h
  rcases h with rfl | rfl | rfl | rfl | rfl | rfl | rfl | rfl | rfl | rfl
  · decide
  · exact noLf_append (by decide) hp.ufrag.noLf
  · exact noLf_append (by decide) hp.pwd.noLf
  · exact noLf_append (noLf_append (noLf_append (noLf_append (by decide) hp.ip.noLf) (by decide))
      (noLf_decimal _)) (by decide)
  · decide
  · exact noLf_append (by decide) hp.fingerprint.noLf
  · decide
  · decide
  · exact noLf_append (by decide) hsec.mid
  · cases answerDirection sec.direction <;> decide

theorem noLf_ssrc {ssrc : UInt32} (h : line ∈ ssrcLines ssrc) : '\n' ∉ line := by
  have hn := noLf_decimal ssrc.toNat
  simp only [ssrcLines, List.mem_cons, List.not_mem_nil, or_false] at h
  rcases h with rfl | rfl | rfl | rfl
  · exact noLf_append (noLf_append (by decide) hn) (by decide)
  · exact noLf_append (noLf_append (noLf_append (by decide) hn) (by decide)) hn
  · exact noLf_append (noLf_append (by decide) hn) (by decide)
  · exact noLf_append (noLf_append (noLf_append (by decide) hn) (by decide)) hn

theorem noLf_answer (hp : CleanServer p) (hclean : p.Clean) (h : line ∈ p.answerLines) :
    '\n' ∉ line := by
  rcases List.mem_append.1 h with h | h
  · exact noLf_header hp hclean h
  · obtain ⟨sec, hsec, h⟩ := List.mem_flatMap.1 h
    have hs := hclean sec hsec
    rcases List.mem_cons.1 h with rfl | h
    · exact noLf_media hs
    · rcases List.mem_append.1 h with h | h
      · rcases List.mem_append.1 h with h | h
        · exact noLf_transport hp hs h
        · exact (hs.codec line h).2
      · obtain ⟨ssrc, h⟩ := mem_expectedSsrc h
        exact noLf_ssrc h

/-- The lines that were written are the lines of the text. -/
theorem lines_answerText (hp : CleanServer p) (hclean : p.Clean) :
    lines '\n' p.answerText = p.answerLines.map crlf := by
  have htext : p.answerText = unlines '\n' (p.answerLines.map crlf) := by
    rw [answerText, unlines, List.flatMap_map]
    refine List.flatMap_congr fun line _ => ?_
    rw [crlf, List.append_assoc]
    rfl
  rw [htext]
  refine lines_unlines fun l hl => ?_
  obtain ⟨line, hline, rfl⟩ := List.mem_map.1 hl
  exact noLf_append (noLf_answer hp hclean hline) (by decide)

theorem parseOffer_ok {sdp : Text}
    (h : (lines '\n' sdp).foldlM parseLine { p with sections := [] } = .ok q) :
    p.parseOffer sdp =
      .ok (q, decide (q.iceUfrag ≠ [] ∧ q.fingerprint ≠ [] ∧ q.sections ≠ [])) := by
  unfold parseOffer
  rw [h]

/-- Reading the whole text of an answer with a new parser. -/
theorem parseOffer_answerText (hp : CleanServer p) (hclean : p.Clean) (hne : p.sections ≠ [])
    (g : PayloadTypes) :
    ∃ q, ({ statics := g } : SdpParser).parseOffer p.answerText = .ok (q, true) ∧
      q.sections = p.sections.map mirror := by
  have hstart : Answered [] ({ statics := g } : SdpParser) :=
    ⟨rfl, fun h => absurd rfl h, fun h => absurd rfl h⟩
  obtain ⟨q, hq, hAt⟩ := parses_answer hp hclean _ hstart
  have hsec : q.sections ≠ [] := by
    rw [hAt.sections]
    exact fun he => hne (List.map_eq_nil_iff.1 he)
  rw [← lines_answerText hp hclean] at hq
  refine ⟨q, ?_, hAt.sections⟩
  rw [parseOffer_ok hq, decide_eq_true ⟨hAt.ufrag hne, hAt.fingerprint hne, hsec⟩]

end Namecon.SdpParser
