import Namecon.Sdp.SdpParser

/-!
# What `parseOffer` makes of a line

The loop body compares a line with the keywords in a fixed order. `NoneStarts ks line` says that
`line` starts with none of `ks`; a line that starts with no keyword at all changes nothing
(`parseTrimmed_inert`), and each kind of line of an answer has its lemma. They are stated for the
trimmed line; `parseLine_crlf` trims the lines of an answer, which end in a CR and start with no
blank.
-/

namespace Namecon.SdpParser

open Lines

variable {p : SdpParser} {line pre x v : Text} {current : MediaSection}

/-! ## Keywords -/

/-- The keywords that are looked for before there is a section. -/
def sessionKeywords : List String := ["m=", "a=ice-ufrag:", "a=ice-pwd:", "a=fingerprint:"]

/-- What `parseOffer` looks for inside a section, codecs apart. -/
def attributeKeywords : List String :=
  ["a=mid:", "a=sendrecv", "a=sendonly", "a=recvonly", "a=inactive"]

/-- What it keeps as a codec line. -/
def codecKeywords : List String := ["a=rtpmap:", "a=rtcp-fb:", "a=fmtp:"]

/-- All it looks for, m= apart. -/
def keywords : List String := sessionKeywords ++ attributeKeywords ++ codecKeywords

/-- The line starts with none of the words. -/
def NoneStarts (ks : List String) (line : Text) : Prop := ∀ k ∈ ks, ¬ k.toList <+: line

instance (ks : List String) (line : Text) : Decidable (NoneStarts ks line) :=
  inferInstanceAs (Decidable (∀ k ∈ ks, ¬ k.toList <+: line))

/-- What starts with `pre` starts with none of `ks`. -/
def ClashAll (ks : List String) (pre : Text) : Prop := ∀ k ∈ ks, Clash k.toList pre

instance (ks : List String) (pre : Text) : Decidable (ClashAll ks pre) :=
  inferInstanceAs (Decidable (∀ k ∈ ks, Clash k.toList pre))

theorem ClashAll.noneStarts {ks : List String} (h : ClashAll ks pre) (hl : pre <+: line) :
    NoneStarts ks line := fun k hk => (h k hk).not_prefix' hl

theorem starts_iff (k : String) (line : Text) : starts k line = true ↔ k.toList <+: line :=
  List.isPrefixOf_iff_prefix

theorem extractAttr_none {key : String} (h : ¬ ("a=".toList ++ key.toList ++ [':']) <+: line) :
    extractAttr line key = [] :=
  if_neg fun hp => h (List.isPrefixOf_iff_prefix.1 hp)

theorem extractAttr_value (key : String) (v : Text) :
    extractAttr ("a=".toList ++ key.toList ++ [':'] ++ v) key = v := by
  have hp : ("a=".toList ++ key.toList ++ [':']).isPrefixOf
      ("a=".toList ++ key.toList ++ [':'] ++ v) = true :=
    List.isPrefixOf_iff_prefix.2 (List.prefix_append _ _)
  unfold extractAttr
  rw [if_pos hp, List.drop_left]

/-! ## Trimming -/

theorem trimLine_crlf {c : Char} (hc : line.head? = some c) (hne : c ≠ ' ' ∧ c ≠ '\t') :
    trimLine (line ++ ['\r']) = some line := by
  cases line with
  | nil => cases hc
  | cons a t =>
    obtain rfl := Option.some.inj hc
    have hblank : ¬ (a == ' ' || a == '\t') = true := by
      simp [hne.1, hne.2]
    have hdrop : (a :: t).dropWhile (fun c => c == ' ' || c == '\t') = a :: t :=
      List.dropWhile_cons_of_neg hblank
    unfold trimLine dropCr
    dsimp only
    rw [List.getLast?_concat, if_pos rfl, List.dropLast_concat, hdrop,
      if_neg (List.cons_ne_nil a t)]

theorem parseLine_crlf {c : Char} (hc : line.head? = some c) (hne : c ≠ ' ' ∧ c ≠ '\t') :
    p.parseLine (line ++ ['\r']) = p.parseTrimmed line := by
  rw [parseLine, trimLine_crlf hc hne]

/-! ## Lines without a meaning -/

theorem parseTrimmed_session (h : NoneStarts sessionKeywords line) : p.parseTrimmed line =
    match p.sections.getLast? with
    | none => .ok p
    | some current => p.parseAttribute current line := by
  have hm : ¬ starts "m=" line = true := fun hs => h "m=" (by decide) ((starts_iff _ _).1 hs)
  have hu : extractAttr line "ice-ufrag" = [] := extractAttr_none (h "a=ice-ufrag:" (by decide))
  have hp : extractAttr line "ice-pwd" = [] := extractAttr_none (h "a=ice-pwd:" (by decide))
  have hf : extractAttr line "fingerprint" = [] :=
    extractAttr_none (h "a=fingerprint:" (by decide))
  unfold parseTrimmed
  dsimp only
  rw [if_neg hm, if_neg (not_not.2 hu), if_neg (not_not.2 hp)]
  exact if_neg (not_not.2 hf)

theorem readDirection_none (h : NoneStarts attributeKeywords line) : readDirection line = none := by
  have hne : ∀ k ∈ attributeKeywords, line ≠ k.toList := fun k hk he =>
    h k hk (he ▸ List.prefix_refl _)
  unfold readDirection
  rw [if_neg (hne "a=sendrecv" (by decide)), if_neg (hne "a=sendonly" (by decide)),
    if_neg (hne "a=recvonly" (by decide)), if_neg (hne "a=inactive" (by decide))]

/-- A line that is neither a mid nor a direction is a codec line or nothing. -/
theorem parseAttribute_codec (h : NoneStarts attributeKeywords line) :
    p.parseAttribute current line =
      if starts "a=rtpmap:" line then p.parseRtpmap current line
      else if starts "a=rtcp-fb:" line then .ok (p.pushCodecLine current line)
      else if starts "a=fmtp:" line then .ok (p.pushCodecLine current line)
      else .ok p := by
  have hm : extractAttr line "mid" = [] := extractAttr_none (h "a=mid:" (by decide))
  unfold parseAttribute
  dsimp only
  rw [if_neg (not_not.2 hm), readDirection_none h]

theorem parseTrimmed_inert (h : NoneStarts keywords line) : p.parseTrimmed line = .ok p := by
  have hses : NoneStarts sessionKeywords line := fun k hk =>
    h k (List.mem_append_left _ (List.mem_append_left _ hk))
  have hatt : NoneStarts attributeKeywords line := fun k hk =>
    h k (List.mem_append_left _ (List.mem_append_right _ hk))
  have hcod : ∀ k ∈ codecKeywords, ¬ starts k line = true := fun k hk hs =>
    h k (List.mem_append_right _ hk) ((starts_iff _ _).1 hs)
  rw [parseTrimmed_session hses]
  cases p.sections.getLast? with
  | none => rfl
  | some current =>
    dsimp only
    rw [parseAttribute_codec hatt, if_neg (hcod "a=rtpmap:" (by decide)),
      if_neg (hcod "a=rtcp-fb:" (by decide)), if_neg (hcod "a=fmtp:" (by decide))]

end Namecon.SdpParser
