import Namecon.Sdp.Proof.Reading

/-!
# The sections of an offer

`Effect` lists what a line can do to the parser. From it: whatever the offer, the sections that
`parseOffer` leaves are `Clean` when every m= line names a type, and the parser keeps what it knows
about its server (`parseOffer_clean`).
-/

namespace Namecon.SdpParser

open Lines

variable {p p' : SdpParser} {line raw : Text} {current : MediaSection}

/-! ## What a line does -/

/-- `p'` has the server's side of `p`. -/
structure SameServer (p p' : SdpParser) : Prop where
  serverIp : p'.serverIp = p.serverIp
  serverPort : p'.serverPort = p.serverPort
  serverUfrag : p'.serverUfrag = p.serverUfrag
  serverPwd : p'.serverPwd = p.serverPwd
  serverFingerprint : p'.serverFingerprint = p.serverFingerprint
  midSsrc : p'.midSsrc = p.midSsrc

theorem SameServer.refl (p : SdpParser) : SameServer p p := ⟨rfl, rfl, rfl, rfl, rfl, rfl⟩

theorem SameServer.trans {p'' : SdpParser} (h : SameServer p p') (h' : SameServer p' p'') :
    SameServer p p'' :=
  ⟨h'.1.trans h.1, h'.2.trans h.2, h'.3.trans h.3, h'.4.trans h.4, h'.5.trans h.5, h'.6.trans h.6⟩

/-- A line that stands in a section of type `type` and is mirrored. -/
structure CodecLine (type line : Text) : Prop where
  keyword : ∃ k ∈ codecKeywords, k.toList <+: line
  readable : starts "a=rtpmap:" line = true → ∀ g, (readRtpmap g type (line.drop 9)).isSome = true

/-- The states a trimmed line may lead to. -/
inductive Effect (p : SdpParser) (line : Text) : SdpParser → Prop
  | opened : "m=".toList <+: line → Effect p line (p.openSection (line.drop 2))
  | session {p' : SdpParser} : p'.sections = p.sections → SameServer p p' → Effect p line p'
  | mid {current : MediaSection} : p.sections.getLast? = some current →
      Effect p line (p.setCurrent { current with mid := extractAttr line "mid" })
  | direction {current : MediaSection} (d : Direction) : p.sections.getLast? = some current →
      Effect p line (p.setCurrent { current with direction := some d })
  | codec {current : MediaSection} (statics : PayloadTypes) :
      p.sections.getLast? = some current → CodecLine current.type line →
        Effect p line { p.pushCodecLine current line with statics }

/-- Whether `stoi` throws does not depend on the static members. -/
theorem readRtpmap_isSome (g g' : PayloadTypes) (type rv : Text) :
    (readRtpmap g type rv).isSome = (readRtpmap g' type rv).isSome := by
  unfold readRtpmap
  dsimp only
  split
  · rw [Option.isSome_map, Option.isSome_map]
  · split
    · rw [Option.isSome_map, Option.isSome_map]
    · rfl

theorem effect_parseAttribute (hc : p.sections.getLast? = some current)
    (h : p.parseAttribute current line = .ok p') : Effect p line p' := by
  unfold parseAttribute at h
  dsimp only at h
  by_cases hmid : extractAttr line "mid" ≠ []
  · rw [if_pos hmid] at h
    obtain rfl := Except.ok.inj h
    exact .mid hc
  rw [if_neg hmid] at h
  cases hd : readDirection line with
  | some d =>
    rw [hd] at h
    obtain rfl := Except.ok.inj h
    exact .direction d hc
  | none =>
    rw [hd] at h
    dsimp only at h
    by_cases hrtpmap : starts "a=rtpmap:" line = true
    · rw [if_pos hrtpmap, parseRtpmap] at h
      cases hr : readRtpmap p.statics current.type (line.drop 9) with
      | none => rw [hr] at h; cases h
      | some statics =>
        rw [hr] at h
        obtain rfl := Except.ok.inj h
        refine .codec statics hc
          ⟨⟨"a=rtpmap:", by decide, (starts_iff _ _).1 hrtpmap⟩, fun _ g => ?_⟩
        rw [readRtpmap_isSome g p.statics, hr]
        rfl
    · have hcodec : ∀ k ∈ codecKeywords, starts k line = true → CodecLine current.type line :=
        fun k hk hs => ⟨⟨k, hk, (starts_iff _ _).1 hs⟩, fun hs' => absurd hs' hrtpmap⟩
      rw [if_neg hrtpmap] at h
      by_cases hfb : starts "a=rtcp-fb:" line = true
      · rw [if_pos hfb] at h
        obtain rfl := Except.ok.inj h
        exact .codec p.statics hc (hcodec _ (by decide) hfb)
      · rw [if_neg hfb] at h
        by_cases hfmtp : starts "a=fmtp:" line = true
        · rw [if_pos hfmtp] at h
          obtain rfl := Except.ok.inj h
          exact .codec p.statics hc (hcodec _ (by decide) hfmtp)
        · rw [if_neg hfmtp] at h
          obtain rfl := Except.ok.inj h
          exact .session rfl (.refl p)

theorem effect_parseTrimmed (h : p.parseTrimmed line = .ok p') : Effect p line p' := by
  unfold parseTrimmed at h
  dsimp only at h
  by_cases hm : starts "m=" line = true
  · rw [if_pos hm] at h
    obtain rfl := Except.ok.inj h
    exact .opened ((starts_iff _ _).1 hm)
  rw [if_neg hm] at h
  by_cases hu : extractAttr line "ice-ufrag" ≠ []
  · rw [if_pos hu] at h
    obtain rfl := Except.ok.inj h
    split
    · exact .session rfl ⟨rfl, rfl, rfl, rfl, rfl, rfl⟩
    · exact .session rfl (.refl p)
  rw [if_neg hu] at h
  by_cases hp : extractAttr line "ice-pwd" ≠ []
  · rw [if_pos hp] at h
    obtain rfl := Except.ok.inj h
    split
    · exact .session rfl ⟨rfl, rfl, rfl, rfl, rfl, rfl⟩
    · exact .session rfl (.refl p)
  rw [if_neg hp] at h
  by_cases hf : extractAttr line "fingerprint" ≠ []
  · rw [if_pos hf] at h
    obtain rfl := Except.ok.inj h
    split
    · exact .session rfl ⟨rfl, rfl, rfl, rfl, rfl, rfl⟩
    · exact .session rfl (.refl p)
  rw [if_neg hf] at h
  cases hc : p.sections.getLast? with
  | none =>
    rw [hc] at h
    obtain rfl := Except.ok.inj h
    exact .session rfl (.refl p)
  | some current =>
    rw [hc] at h
    exact effect_parseAttribute hc h

theorem Effect.sameServer (h : Effect p line p') : SameServer p p' := by
  cases h with
  | opened _ => exact ⟨rfl, rfl, rfl, rfl, rfl, rfl⟩
  | session _ hs => exact hs
  | mid _ => exact ⟨rfl, rfl, rfl, rfl, rfl, rfl⟩
  | direction _ _ => exact ⟨rfl, rfl, rfl, rfl, rfl, rfl⟩
  | codec _ _ _ => exact ⟨rfl, rfl, rfl, rfl, rfl, rfl⟩

/-! ## Clean sections -/

/-- A section whose fields can be written into an answer. -/
structure CleanSection (sec : MediaSection) : Prop where
  typed : sec.type ≠ []
  word : ∀ c ∈ sec.type, isSpace c = false
  mid : '\n' ∉ sec.mid
  ptList : '\n' ∉ sec.ptList
  codec : ∀ line ∈ sec.codecLines, CodecLine sec.type line ∧ '\n' ∉ line

/-- No section of the offer holds a text that breaks a line of the answer. -/
def Clean (p : SdpParser) : Prop := ∀ sec ∈ p.sections, CleanSection sec

theorem not_mem_extractAttr {c : Char} (h : c ∉ line) (key : String) :
    c ∉ extractAttr line key := by
  unfold extractAttr
  dsimp only
  split
  · exact fun hc => h (List.mem_of_mem_drop hc)
  · exact List.not_mem_nil

theorem not_mem_trimLine {c : Char} (h : c ∉ raw) (hl : trimLine raw = some line) : c ∉ line := by
  unfold trimLine at hl
  dsimp only at hl
  by_cases hempty : ((dropCr raw).dropWhile fun c => c == ' ' || c == '\t') = []
  · rw [if_pos hempty] at hl
    cases hl
  · rw [if_neg hempty] at hl
    obtain rfl := Option.some.inj hl
    intro hc
    have hc : c ∈ dropCr raw := (List.dropWhile_sublist _).subset hc
    unfold dropCr at hc
    split at hc
    · exact h (List.mem_of_mem_dropLast hc)
    · exact h hc

/-- The type is a word, and the list of payload types is a piece of the line. -/
theorem readMedia_spec (ms : Text) : (∀ c ∈ (readMedia ms).1, isSpace c = false) ∧
    (readMedia ms).2 <:+ ms := by
  unfold readMedia
  cases h1 : readToken isSpace ms with
  | none => exact ⟨fun c hc => (List.not_mem_nil hc).elim, List.nil_suffix⟩
  | some t1 =>
    obtain ⟨type, ms1⟩ := t1
    obtain ⟨-, hword, lead1, rfl⟩ := readToken_some h1
    dsimp only
    cases h2 : readToken isSpace ms1 with
    | none => exact ⟨hword, List.nil_suffix⟩
    | some t2 =>
      obtain ⟨port, ms2⟩ := t2
      obtain ⟨-, -, lead2, rfl⟩ := readToken_some h2
      dsimp only
      cases h3 : readToken isSpace ms2 with
      | none => exact ⟨hword, List.nil_suffix⟩
      | some t3 =>
        obtain ⟨proto, rest⟩ := t3
        obtain ⟨-, -, lead3, rfl⟩ := readToken_some h3
        refine ⟨hword, ?_⟩
        have hrest : rest <:+
            lead1 ++ type ++ (lead2 ++ port ++ (lead3 ++ proto ++ rest)) :=
          ((List.suffix_append _ _).trans (List.suffix_append _ _)).trans (List.suffix_append _ _)
        dsimp only
        split
        · exact (List.tail_suffix rest).trans hrest
        · exact hrest

theorem Clean.getLast (h : p.Clean) (hc : p.sections.getLast? = some current) :
    CleanSection current :=
  h current (List.mem_of_getLast? hc)

theorem Clean.setCurrent (h : p.Clean) {sec : MediaSection} (hsec : CleanSection sec) :
    (p.setCurrent sec).Clean := by
  intro s hs
  rcases List.mem_append.1 hs with hs | hs
  · exact h s (List.mem_of_mem_dropLast hs)
  · rw [List.mem_singleton.1 hs]
    exact hsec

/-- The m= line names a media type. -/
def NamesType (line : Text) : Prop :=
  "m=".toList <+: line → (readMedia (line.drop 2)).1 ≠ []

instance (line : Text) : Decidable (NamesType line) := inferInstanceAs (Decidable (_ → _))

theorem Effect.clean (h : Effect p line p') (hclean : p.Clean) (hline : '\n' ∉ line)
    (hnamed : NamesType line) : p'.Clean := by
  cases h with
  | opened hm =>
    intro sec hsec
    rcases List.mem_append.1 hsec with hsec | hsec
    · exact hclean sec hsec
    · rw [List.mem_singleton.1 hsec]
      obtain ⟨hword, hrest⟩ := readMedia_spec (line.drop 2)
      exact ⟨hnamed hm, hword, List.not_mem_nil,
        fun hc => hline (List.mem_of_mem_drop (hrest.subset hc)),
        fun l hl => (List.not_mem_nil hl).elim⟩
  | session hs _ =>
    intro sec hsec
    rw [hs] at hsec
    exact hclean sec hsec
  | mid hc =>
    have hcur := hclean.getLast hc
    exact hclean.setCurrent ⟨hcur.typed, hcur.word, not_mem_extractAttr hline "mid", hcur.ptList,
      hcur.codec⟩
  | direction d hc =>
    have hcur := hclean.getLast hc
    exact hclean.setCurrent ⟨hcur.typed, hcur.word, hcur.mid, hcur.ptList, hcur.codec⟩
  | codec statics hc hcodec =>
    have hcur := hclean.getLast hc
    refine hclean.setCurrent ⟨hcur.typed, hcur.word, hcur.mid, hcur.ptList, fun l hl => ?_⟩
    rcases List.mem_append.1 hl with hl | hl
    · exact hcur.codec l hl
    · rw [List.mem_singleton.1 hl]
      exact ⟨hcodec, hline⟩

/-! ## Offers -/

/-- Every m= line of the offer names a media type. -/
def NamesTypes (offer : Text) : Prop :=
  ∀ raw ∈ lines '\n' offer, ∀ line ∈ trimLine raw, NamesType line

instance (offer : Text) : Decidable (NamesTypes offer) :=
  inferInstanceAs (Decidable (∀ raw ∈ lines '\n' offer, ∀ line ∈ trimLine raw, NamesType line))

/-- What `parseOffer` has done when it returns. -/
theorem parseOffer_returned {offer : Text} {ok : Bool} (h : p.parseOffer offer = .ok (p', ok)) :
    (lines '\n' offer).foldlM parseLine { p with sections := [] } = .ok p' ∧
      ok = decide (p'.iceUfrag ≠ [] ∧ p'.fingerprint ≠ [] ∧ p'.sections ≠ []) := by
  unfold parseOffer at h
  cases hf : (lines '\n' offer).foldlM parseLine { p with sections := [] } with
  | error e => rw [hf] at h; cases h
  | ok q =>
    rw [hf] at h
    obtain ⟨rfl, rfl⟩ := Prod.mk.inj (Except.ok.inj h)
    exact ⟨rfl, rfl⟩

theorem parseOffer_clean {offer : Text} (hnamed : NamesTypes offer) {ok : Bool}
    (h : p.parseOffer offer = .ok (p', ok)) : p'.Clean ∧ SameServer p p' := by
  obtain ⟨hf, -⟩ := parseOffer_returned h
  have hstart : Clean { p with sections := [] } ∧ SameServer p { p with sections := [] } :=
    ⟨fun sec hsec => (List.not_mem_nil hsec).elim, rfl, rfl, rfl, rfl, rfl, rfl⟩
  refine foldlM_inv (I := fun q => q.Clean ∧ SameServer p q) (fun q raw q' hraw hq hstep => ?_)
    hstart hf
  unfold parseLine at hstep
  cases ht : trimLine raw with
  | none =>
    rw [ht] at hstep
    obtain rfl := Except.ok.inj hstep
    exact hq
  | some line =>
    rw [ht] at hstep
    have heff := effect_parseTrimmed hstep
    have hline := not_mem_trimLine (sep_not_mem_of_mem_lines hraw) ht
    exact ⟨heff.clean hq.1 hline (hnamed raw hraw line ht), hq.2.trans heff.sameServer⟩

end Namecon.SdpParser
