-- The grammar of JSON texts, written down without the reader. A text of the grammar is read to its
-- end, as the document that it writes; and what is written for a value, on one line or over
-- several, is a text of the grammar.
import PipeScript.Proofs.Json.Documents

namespace PipeScript

namespace Document

/-! ## The grammar -/

/-- Blanks, which may stand in front of every token. -/
def Blank (cs : List Char) : Prop := ∀ c ∈ cs, Token.isSpace c = true

mutual

/-- A value in a text. -/
inductive Text : Document → List Char → Prop where
  | null : Text (.scalar .null) ['n', 'u', 'l', 'l']
  | yes : Text (.scalar (.bool true)) ['t', 'r', 'u', 'e']
  | no : Text (.scalar (.bool false)) ['f', 'a', 'l', 's', 'e']
  | number {n : Numeral} {cs : List Char} : n.Text cs → Text (.scalar (.number n)) cs
  | string {pieces : List Piece} {cs : List Char} : Piece.QuotedText pieces cs →
    Text (.scalar (.text pieces)) cs
  | array {items : List Document} {cs : List Char} : ItemsText items cs →
    Text (.array items true) ('[' :: (cs ++ [']']))
  | object {members : List (List Piece × Document)} {cs : List Char} : MembersText members cs →
    Text (.object members true) ('\x7b' :: (cs ++ ['\x7d']))

/-- The inside of an array. -/
inductive ItemsText : List Document → List Char → Prop where
  | nil {bs : List Char} : Blank bs → ItemsText [] bs
  | cons {item : Document} {items : List Document} {bs cs rest : List Char} : Blank bs →
    Text item cs → MoreItemsText items rest → ItemsText (item :: items) (bs ++ (cs ++ rest))

/-- The items after the first one, each behind a comma. -/
inductive MoreItemsText : List Document → List Char → Prop where
  | nil {bs : List Char} : Blank bs → MoreItemsText [] bs
  | cons {item : Document} {items : List Document} {bs bs' cs rest : List Char} : Blank bs →
    Blank bs' → Text item cs → MoreItemsText items rest →
    MoreItemsText (item :: items) (bs ++ ',' :: (bs' ++ (cs ++ rest)))

/-- A key with its value. -/
inductive MemberText : List Piece × Document → List Char → Prop where
  | mk {key : List Piece} {value : Document} {bs bs' bs'' ks cs : List Char} : Blank bs →
    Piece.QuotedText key ks → Blank bs' → Blank bs'' → Text value cs →
    MemberText (key, value) (bs ++ (ks ++ (bs' ++ ':' :: (bs'' ++ cs))))

/-- The inside of an object. -/
inductive MembersText : List (List Piece × Document) → List Char → Prop where
  | nil {bs : List Char} : Blank bs → MembersText [] bs
  | cons {member : List Piece × Document} {members : List (List Piece × Document)}
      {cs rest : List Char} : MemberText member cs → MoreMembersText members rest →
    MembersText (member :: members) (cs ++ rest)

/-- The members after the first one, each behind a comma. -/
inductive MoreMembersText : List (List Piece × Document) → List Char → Prop where
  | nil {bs : List Char} : Blank bs → MoreMembersText [] bs
  | cons {member : List Piece × Document} {members : List (List Piece × Document)}
      {bs cs rest : List Char} : Blank bs → MemberText member cs → MoreMembersText members rest →
    MoreMembersText (member :: members) (bs ++ ',' :: (cs ++ rest))

end

/-- A document in a text that holds nothing else. -/
inductive WholeText : Document → List Char → Prop where
  | mk {d : Document} {bs cs bs' : List Char} : Blank bs → Text d cs → Blank bs' →
    WholeText d (bs ++ (cs ++ bs'))

/-! ## No fault -/

mutual

/-- What is written in the grammar has no fault. -/
theorem Text.sound : {d : Document} → {cs : List Char} → Text d cs → Reader.sound d = true
  | _, _, .null | _, _, .yes | _, _, .no | _, _, .number _ | _, _, .string _ => rfl
  | _, _, .array h => by simp [Reader.sound, h.sound]
  | _, _, .object h => by simp [Reader.sound, h.sound]

theorem ItemsText.sound : {items : List Document} → {cs : List Char} → ItemsText items cs →
    Reader.soundItems items = true
  | _, _, .nil _ => rfl
  | _, _, .cons _ hitem hmore => by simp [Reader.soundItems, hitem.sound, hmore.sound]

theorem MoreItemsText.sound : {items : List Document} → {cs : List Char} →
    MoreItemsText items cs → Reader.soundItems items = true
  | _, _, .nil _ => rfl
  | _, _, .cons _ _ hitem hmore => by simp [Reader.soundItems, hitem.sound, hmore.sound]

theorem MembersText.sound : {members : List (List Piece × Document)} → {cs : List Char} →
    MembersText members cs → Reader.soundMembers members = true
  | _, _, .nil _ => rfl
  | _, _, .cons (.mk _ _ _ _ hvalue) hmore => by
    simp [Reader.soundMembers, hvalue.sound, hmore.sound]

theorem MoreMembersText.sound : {members : List (List Piece × Document)} → {cs : List Char} →
    MoreMembersText members cs → Reader.soundMembers members = true
  | _, _, .nil _ => rfl
  | _, _, .cons _ (.mk _ _ _ _ hvalue) hmore => by
    simp [Reader.soundMembers, hvalue.sound, hmore.sound]

end

theorem WholeText.sound {d : Document} {cs : List Char} (h : WholeText d cs) :
    Reader.sound d = true := by
  cases h with
  | mk _ htext _ => exact htext.sound

end Document

/-! ## The tokens of a text -/

namespace Token

open Document (Blank Text ItemsText MoreItemsText MemberText MembersText MoreMembersText tokens
  itemTokens moreItemTokens memberTokens moreMemberTokens)

theorem scan_blank {bs : List Char} (h : Blank bs) (rest : List Char) :
    scan .between (bs ++ rest) = scan .between rest := by
  induction bs with
  | nil => rfl
  | cons c bs ih =>
    have hstep : step .between c = ([], .between) := by
      rw [step, begin, if_pos (h c List.mem_cons_self)]
    rw [List.cons_append, scan_silent .between hstep]
    exact ih fun c hc => h c (List.mem_cons_of_mem _ hc)

theorem stops_blank {bs rest : List Char} (h : Blank bs) (hrest : Stops rest) :
    Stops (bs ++ rest) := by
  cases bs with
  | nil => exact hrest
  | cons c bs => exact Or.inr (Or.inr (Or.inr (h c List.mem_cons_self)))

theorem stops_moreItems {items : List Document} {cs rest : List Char} (h : MoreItemsText items cs)
    (hrest : Stops rest) : Stops (cs ++ rest) := by
  cases h with
  | nil hblank => exact stops_blank hblank hrest
  | cons hblank _ _ _ =>
    rw [List.append_assoc]
    exact stops_blank hblank (Or.inl rfl)

theorem stops_moreMembers {members : List (List Piece × Document)} {cs rest : List Char}
    (h : MoreMembersText members cs) (hrest : Stops rest) : Stops (cs ++ rest) := by
  cases h with
  | nil hblank => exact stops_blank hblank hrest
  | cons hblank _ _ =>
    rw [List.append_assoc]
    exact stops_blank hblank (Or.inl rfl)

/-- A mark is one token. -/
theorem scan_mark {mark : Char} {token : Token} (h : step .between mark = ([token], .between))
    (rest : List Char) : scan .between (mark :: rest) = token :: scan .between rest :=
  scan_cons h rest

mutual

/-- A value in a text has the tokens of its document. -/
theorem scan_text : {d : Document} → {cs : List Char} → Text d cs → ∀ {rest : List Char},
    Stops rest → scan .between (cs ++ rest) = d.tokens ++ scan .between rest
  | _, _, .null, _, _ => rfl
  | _, _, .yes, _, _ => rfl
  | _, _, .no, _, _ => rfl
  | _, _, .number h, _, hrest => scan_numeral h hrest
  | _, _, .string h, rest, _ => scan_quotedText h rest
  | _, _, .array h, rest, _ => by
    have hclose : Stops (']' :: rest) := Or.inr (Or.inl rfl)
    simp only [List.cons_append, List.append_assoc, List.nil_append]
    rw [scan_mark (show step .between '[' = ([.beginArray], .between) from rfl),
      scan_items h hclose,
      scan_mark (show step .between ']' = ([.endArray], .between) from rfl)]
    simp [tokens]
  | _, _, .object h, rest, _ => by
    have hclose : Stops ('\x7d' :: rest) := Or.inr (Or.inr (Or.inl rfl))
    simp only [List.cons_append, List.append_assoc, List.nil_append]
    rw [scan_mark (show step .between '\x7b' = ([.beginObject], .between) from rfl),
      scan_members h hclose,
      scan_mark (show step .between '\x7d' = ([.endObject], .between) from rfl)]
    simp [tokens]

theorem scan_items : {items : List Document} → {cs : List Char} → ItemsText items cs →
    ∀ {rest : List Char}, Stops rest →
    scan .between (cs ++ rest) = itemTokens items ++ scan .between rest
  | _, _, .nil hblank, rest, _ => scan_blank hblank rest
  | _, _, .cons hblank hitem hmore, _, hrest => by
    simp only [List.append_assoc, itemTokens]
    rw [scan_blank hblank, scan_text hitem (stops_moreItems hmore hrest),
      scan_moreItems hmore hrest]

theorem scan_moreItems : {items : List Document} → {cs : List Char} → MoreItemsText items cs →
    ∀ {rest : List Char}, Stops rest →
    scan .between (cs ++ rest) = moreItemTokens items ++ scan .between rest
  | _, _, .nil hblank, rest, _ => scan_blank hblank rest
  | _, _, .cons hblank hblank' hitem hmore, _, hrest => by
    simp only [List.append_assoc, List.cons_append, moreItemTokens]
    rw [scan_blank hblank, scan_mark (show step .between ',' = ([.comma], .between) from rfl),
      scan_blank hblank', scan_text hitem (stops_moreItems hmore hrest),
      scan_moreItems hmore hrest]

theorem scan_member : {member : List Piece × Document} → {cs : List Char} →
    MemberText member cs → ∀ {rest : List Char}, Stops rest →
    scan .between (cs ++ rest) =
      .scalar (.text member.1) :: .colon :: (member.2.tokens ++ scan .between rest)
  | _, _, .mk hblank hkey hblank' hblank'' hvalue, _, hrest => by
    simp only [List.append_assoc, List.cons_append]
    rw [scan_blank hblank, scan_quotedText hkey, scan_blank hblank',
      scan_mark (show step .between ':' = ([.colon], .between) from rfl), scan_blank hblank'',
      scan_text hvalue hrest]

theorem scan_members : {members : List (List Piece × Document)} → {cs : List Char} →
    MembersText members cs → ∀ {rest : List Char}, Stops rest →
    scan .between (cs ++ rest) = memberTokens members ++ scan .between rest
  | _, _, .nil hblank, rest, _ => scan_blank hblank rest
  | _, _, .cons hmember hmore, _, hrest => by
    rw [List.append_assoc, scan_member hmember (stops_moreMembers hmore hrest),
      scan_moreMembers hmore hrest]
    simp [memberTokens]

theorem scan_moreMembers : {members : List (List Piece × Document)} → {cs : List Char} →
    MoreMembersText members cs → ∀ {rest : List Char}, Stops rest →
    scan .between (cs ++ rest) = moreMemberTokens members ++ scan .between rest
  | _, _, .nil hblank, rest, _ => scan_blank hblank rest
  | _, _, .cons hblank hmember hmore, _, hrest => by
    simp only [List.append_assoc, List.cons_append]
    rw [scan_blank hblank, scan_mark (show step .between ',' = ([.comma], .between) from rfl),
      scan_member hmember (stops_moreMembers hmore hrest), scan_moreMembers hmore hrest]
    simp [moreMemberTokens]

end

end Token

namespace Document

theorem WholeText.tokens {d : Document} {cs : List Char} (h : WholeText d cs) :
    Token.scan .between cs = d.tokens := by
  cases h with
  | mk hblank htext hblank' =>
    have hstops := Token.stops_blank hblank' (show Token.Stops [] from trivial)
    have hclose := Token.scan_blank hblank' []
    rw [List.append_nil] at hstops hclose
    rw [Token.scan_blank hblank, Token.scan_text htext hstops, hclose]
    exact List.append_nil _

/-- A text of the grammar is read as the document that it writes, and nothing is left. -/
theorem ofText_of_wholeText {d : Document} {text : String} (h : WholeText d text.toList) :
    ofText text = ⟨d, false⟩ := by
  have hbuild := build_tokens d h.sound [] []
  rw [List.append_nil] at hbuild
  unfold ofText Token.ofText
  rw [h.tokens, hbuild]
  rfl

/-! ## The text of a value -/

theorem blank_nil : Blank [] := fun _ hc => nomatch hc

theorem blank_space : Blank [' '] := by
  intro c hc
  rw [List.mem_singleton.mp hc]
  rfl

theorem blank_lineBreak (depth : Nat) : Blank (Json.lineBreak depth).toList := by
  unfold Json.lineBreak
  rw [String.toList_ofList]
  intro c hc
  rcases List.mem_cons.mp hc with rfl | hc
  · rfl
  · rw [(List.mem_replicate.mp hc).2]
    rfl

mutual

/-- A value over several lines is a text of its document. -/
theorem text_pretty : (j : Json) → (depth : Nat) → Text (ofJson j) (j.pretty depth).toList
  | .null, _ => by simpa [Json.pretty, ofJson] using Text.null
  | .bool true, _ => by simpa [Json.pretty, ofJson] using Text.yes
  | .bool false, _ => by simpa [Json.pretty, ofJson] using Text.no
  | .number value, _ => .number (Numeral.text_number value)
  | .string value, _ => .string (Piece.quotedText_quoted value)
  | .array [], _ => by
    simpa [Json.pretty, ofJson, ofItems] using Text.array (ItemsText.nil blank_nil)
  | .array (item :: items), depth => by
    have hitems := ItemsText.cons (blank_lineBreak (depth + 1)) (text_pretty item (depth + 1))
      (moreItemsText_pretty items (depth + 1) (blank_lineBreak depth))
    simpa [Json.pretty, ofJson, ofItems] using Text.array hitems
  | .object [], _ => by
    simpa [Json.pretty, ofJson, ofMembers] using Text.object (MembersText.nil blank_nil)
  | .object ((key, value) :: members), depth => by
    have hmember := MemberText.mk (blank_lineBreak (depth + 1)) (Piece.quotedText_quoted key)
      blank_nil blank_space (text_pretty value (depth + 1))
    have hmembers := MembersText.cons hmember
      (moreMembersText_pretty members (depth + 1) (blank_lineBreak depth))
    simpa [Json.pretty, ofJson, ofMembers] using Text.object hmembers

theorem moreItemsText_pretty : (items : List Json) → (depth : Nat) → {bs : List Char} → Blank bs →
    MoreItemsText (ofItems items) ((Json.prettyRest depth items).toList ++ bs)
  | [], _, _, hblank => .nil hblank
  | item :: items, depth, _, hblank => by
    have hmore := MoreItemsText.cons blank_nil (blank_lineBreak depth) (text_pretty item depth)
      (moreItemsText_pretty items depth hblank)
    simpa [Json.prettyRest, ofItems] using hmore

theorem moreMembersText_pretty : (members : List (String × Json)) → (depth : Nat) →
    {bs : List Char} → Blank bs →
    MoreMembersText (ofMembers members) ((Json.prettyMoreMembers depth members).toList ++ bs)
  | [], _, _, hblank => .nil hblank
  | (key, value) :: members, depth, _, hblank => by
    have hmember := MemberText.mk (blank_lineBreak depth) (Piece.quotedText_quoted key)
      blank_nil blank_space (text_pretty value depth)
    have hmore := MoreMembersText.cons blank_nil hmember
      (moreMembersText_pretty members depth hblank)
    simpa [Json.prettyMoreMembers, ofMembers] using hmore

end

mutual

/-- A value on one line is a text of its document. -/
theorem text_compact : (j : Json) → Text (ofJson j) j.compact.toList
  | .null => .null
  | .bool true => .yes
  | .bool false => .no
  | .number value => .number (Numeral.text_number value)
  | .string value => .string (Piece.quotedText_quoted value)
  | .array [] => .array (.nil blank_nil)
  | .array (item :: items) => by
    have hitems := ItemsText.cons blank_nil (text_compact item) (moreItemsText_compact items)
    simpa [Json.compact, Json.compactItems, ofJson, ofItems] using Text.array hitems
  | .object [] => .object (.nil blank_nil)
  | .object ((key, value) :: members) => by
    have hmember := MemberText.mk blank_nil (Piece.quotedText_quoted key) blank_nil blank_nil
      (text_compact value)
    have hmembers := MembersText.cons hmember (moreMembersText_compact members)
    simpa [Json.compact, Json.compactMembers, ofJson, ofMembers] using Text.object hmembers

theorem moreItemsText_compact : (items : List Json) →
    MoreItemsText (ofItems items) (Json.compactRest items).toList
  | [] => .nil blank_nil
  | item :: items => by
    have hmore := MoreItemsText.cons blank_nil blank_nil (text_compact item)
      (moreItemsText_compact items)
    simpa [Json.compactRest, ofItems] using hmore

theorem moreMembersText_compact : (members : List (String × Json)) →
    MoreMembersText (ofMembers members) (Json.compactMoreMembers members).toList
  | [] => .nil blank_nil
  | (key, value) :: members => by
    have hmember := MemberText.mk blank_nil (Piece.quotedText_quoted key) blank_nil blank_nil
      (text_compact value)
    have hmore := MoreMembersText.cons blank_nil hmember (moreMembersText_compact members)
    simpa [Json.compactMoreMembers, ofMembers] using hmore

end

/-- A text that holds one value and nothing around it. -/
theorem Text.wholeText {d : Document} {cs : List Char} (h : Text d cs) : WholeText d cs := by
  have hwhole := WholeText.mk blank_nil h blank_nil
  rwa [List.nil_append, List.append_nil] at hwhole

/-- A value that was written over several lines is read back whole. -/
theorem ofText_pretty (j : Json) : ofText (j.pretty 0) = ⟨ofJson j, false⟩ :=
  ofText_of_wholeText (text_pretty j 0).wholeText

/-- A value that was written on one line is read back whole. -/
theorem ofText_compact (j : Json) : ofText j.compact = ⟨ofJson j, false⟩ :=
  ofText_of_wholeText (text_compact j).wholeText

end Document

end PipeScript
