import GeonServer.PacketGenerator
import Mathlib.Data.List.Sort
/-!
# ProtoFile — the messages of a proto file and the lines of `parse_proto`

What a proto file declares does not depend on how it is laid out: comments and strings are skipped, and a message is a
statement outside all braces whose first word is "message" (`topMessages`).  `parse_proto` goes by lines instead.  The two
agree when every message with the prefix of a packet begins a line, with its name as the second word and in capitals,
and no other line looks like one (`declared_messages_listed`); otherwise a name can come with a brace, and the script can
raise (`brace_joins_name`).

The tokens are those of `Tokenizer` of google/protobuf/io/tokenizer.h.  A place in the file is the text from there on.
-/
namespace Geon
namespace PacketGenerator

/-! ## Tokens -/

/-- A word is an identifier or a piece of a number, with the text from its first letter on; `symbol` is any other
character, and the quote of a string. -/
inductive Token
  | word (text : Name) (start : List Char)
  | symbol (c : Char)
  deriving DecidableEq, Repr

inductive LexMode
  | text (inWord : Bool)
  | lineComment
  /-- The slash of a block comment has been read. -/
  | blockOpen
  | blockComment (star : Bool)
  | string (quote : Char) (escaped : Bool)
  deriving DecidableEq, Repr

def isWordChar (c : Char) : Bool := c.isAlphanum || c == '_'

def isWhitespace (c : Char) : Bool := c == ' ' || c == '\n' || c == '\t' || c == '\r' || c == '\x0b' || c == '\x0c'

/-- The tokens of a text, `none` where a block comment or a string has no end. -/
def lex : LexMode → List Char → Option (List Token)
  | .text _, [] | .lineComment, [] => some []
  | .blockOpen, [] | .blockComment _, [] | .string _ _, [] => none
  | .text inWord, c :: text =>
    if isWordChar c = true then
      if inWord = true then lex (.text true) text
      else (lex (.text true) text).map (fun tokens => .word ((c :: text).takeWhile isWordChar) (c :: text) :: tokens)
    else if isWhitespace c = true then lex (.text false) text
    else if c = '/' ∧ text.head? = some '/' then lex .lineComment text
    else if c = '/' ∧ text.head? = some '*' then lex .blockOpen text
    else (lex (if c = '\x22' ∨ c = '\x27' then .string c false else .text false) text).map
      (fun tokens => .symbol c :: tokens)
  | .lineComment, c :: text => lex (if c = '\n' then .text false else .lineComment) text
  | .blockOpen, _ :: text => lex (.blockComment false) text
  | .blockComment star, c :: text => lex (if star = true ∧ c = '/' then .text false else .blockComment (c == '*')) text
  | .string quote escaped, c :: text =>
    -- a string does not go over the end of its line
    if c = '\n' then none
    else lex (if escaped = true then .string quote false
      else if c = quote then .text false else .string quote (c == '\\')) text

/-! ## Top-level messages -/

/-- A message that is declared outside all others, with the text from the word "message" on. -/
structure TopMessage where
  name : Name
  start : List Char
  deriving DecidableEq, Repr

/-- Where one is in the statements of a file. -/
inductive Place
  | top
  | statement
  | block (depth : Nat)
  | keyword (start : List Char)
  | named (message : TopMessage)
  deriving DecidableEq, Repr

/-- What a token does to the place, and the message whose body it opens. -/
def Place.next : Place → Token → Option (Place × Option TopMessage)
  | .top, .word text start => some (if text = "message".toList then .keyword start else .statement, none)
  | .top, .symbol c | .statement, .symbol c =>
    if c = ';' then some (.top, none)
    else if c = '\x7b' then some (.block 0, none)
    else if c = '\x7d' then none
    else some (.statement, none)
  | .statement, .word _ _ => some (.statement, none)
  | .block depth, .word _ _ => some (.block depth, none)
  | .block depth, .symbol c =>
    if c = '\x7b' then some (.block (depth + 1), none)
    else if c = '\x7d' then some (if depth = 0 then .top else .block (depth - 1), none)
    else some (.block depth, none)
  | .keyword start, .word name _ => some (.named ⟨name, start⟩, none)
  | .keyword _, .symbol _ => none
  | .named message, .symbol c => if c = '\x7b' then some (.block 0, some message) else none
  | .named _, .word _ _ => none

def messagesFrom : Place → List Token → Option (List TopMessage)
  | place, [] => if place = .top then some [] else none
  | place, token :: tokens => (place.next token).bind (fun r =>
      (messagesFrom r.1 tokens).map (fun messages => r.2.toList ++ messages))

/-- The top-level messages of a file in order, `none` if the text has not the outline of a proto file; every file that
`protoc` accepts has.  A byte order mark is skipped. -/
def topMessages (text : List Char) : Option (List TopMessage) :=
  (lex (.text false) (if text.head? = some '\ufeff' then text.tail else text)).bind (messagesFrom .top)

/-! ## The places of the messages -/

/-- Later in the file. -/
def Behind (start start' : List Char) : Prop := start'.length < start.length

instance : Std.Irrefl Behind := ⟨fun start => Nat.lt_irrefl start.length⟩

instance : Std.Antisymm Behind := ⟨fun _ _ h h' => absurd h (Nat.lt_asymm h')⟩

/-- Places in order, the first of them in this text. -/
def InOrder (text : List Char) (starts : List (List Char)) : Prop :=
  starts.Pairwise Behind ∧ ∀ start ∈ starts, start.length ≤ text.length

theorem InOrder.nil (text : List Char) : InOrder text [] := ⟨.nil, fun _ h => absurd h List.not_mem_nil⟩

theorem InOrder.skip {c : Char} {text : List Char} {starts : List (List Char)} (h : InOrder text starts) :
    InOrder (c :: text) starts :=
  ⟨h.1, fun start hstart => Nat.le_succ_of_le (h.2 start hstart)⟩

theorem InOrder.here {c : Char} {text : List Char} {starts : List (List Char)} (h : InOrder text starts) :
    InOrder (c :: text) ((c :: text) :: starts) := by
  refine ⟨List.pairwise_cons.2 ⟨fun start hstart => Nat.lt_succ_of_le (h.2 start hstart), h.1⟩, fun start hstart => ?_⟩
  rcases List.mem_cons.1 hstart with rfl | hstart
  · exact Nat.le_refl _
  · exact Nat.le_succ_of_le (h.2 start hstart)

/-- The place of a word "message". -/
def Token.message? : Token → Option (List Char)
  | .word text start => if text = "message".toList then some start else none
  | .symbol _ => none

/-- The words "message" of a text. -/
def keywords (tokens : List Token) : List (List Char) := tokens.filterMap Token.message?

/-- **The words of a text stand in order**, and each is what its place begins with. -/
theorem lex_keywords : ∀ (text : List Char) {mode : LexMode} {tokens : List Token}, lex mode text = some tokens →
    InOrder text (keywords tokens) ∧ ∀ start ∈ keywords tokens, start.takeWhile isWordChar = "message".toList
  | [], mode, tokens, h => by
    cases mode with
    | text _ | lineComment =>
      cases h
      exact ⟨.nil [], fun _ h => absurd h List.not_mem_nil⟩
    | blockOpen | blockComment _ | string _ _ => cases h
  | c :: text, mode, tokens, h => by
    have hskip : ∀ {mode' : LexMode} {tokens' : List Token}, lex mode' text = some tokens' →
        InOrder (c :: text) (keywords tokens') ∧
          ∀ start ∈ keywords tokens', start.takeWhile isWordChar = "message".toList := fun h' =>
      ⟨(lex_keywords text h').1.skip, (lex_keywords text h').2⟩
    cases mode with
    | text inWord =>
      simp only [lex] at h
      split at h
      · split at h
        · exact hskip h
        · obtain ⟨rest, hrest, rfl⟩ := Option.map_eq_some_iff.1 h
          by_cases hword : (c :: text).takeWhile isWordChar = "message".toList
          · have hkey : keywords (.word ((c :: text).takeWhile isWordChar) (c :: text) :: rest) =
                (c :: text) :: keywords rest := List.filterMap_cons_some (if_pos hword)
            rw [hkey]
            refine ⟨(lex_keywords text hrest).1.here, fun start hstart => ?_⟩
            rcases List.mem_cons.1 hstart with rfl | hstart
            · exact hword
            · exact (lex_keywords text hrest).2 start hstart
          · have hkey : keywords (.word ((c :: text).takeWhile isWordChar) (c :: text) :: rest) = keywords rest :=
              List.filterMap_cons_none (if_neg hword)
            rw [hkey]
            exact hskip hrest
      · split at h
        · exact hskip h
        · split at h
          · exact hskip h
          · split at h
            · exact hskip h
            · obtain ⟨rest, hrest, rfl⟩ := Option.map_eq_some_iff.1 h
              have hkey : keywords (.symbol c :: rest) = keywords rest := List.filterMap_cons_none rfl
              rw [hkey]
              exact hskip hrest
    | lineComment => exact hskip h
    | blockOpen => exact hskip h
    | blockComment star => exact hskip h
    | string quote escaped =>
      simp only [lex] at h
      split at h
      · cases h
      · exact hskip h

/-- The word "message" that has been read for a message not yet opened. -/
def Place.pending : Place → List (List Char)
  | .keyword start => [start]
  | .named message => [message.start]
  | .top | .statement | .block _ => []

theorem next_pending {place place' : Place} {token : Token} {opened : Option TopMessage}
    (h : place.next token = some (place', opened)) :
    ((opened.toList.map TopMessage.start) ++ place'.pending).Sublist (place.pending ++ token.message?.toList) := by
  cases token with
  | word text start =>
    cases place with
    | top =>
      cases h
      by_cases htext : text = "message".toList
      · rw [Token.message?, if_pos htext, if_pos htext]
        exact .refl _
      · rw [Token.message?, if_neg htext, if_neg htext]
        exact .refl _
    | statement | block depth =>
      cases h
      exact List.nil_sublist _
    | keyword start' =>
      cases h
      exact List.sublist_append_left _ _
    | named message => cases h
  | symbol c =>
    cases place with
    | top | statement =>
      simp only [Place.next] at h
      split at h
      · cases h
        exact .refl _
      · split at h
        · cases h
          exact .refl _
        · split at h <;> cases h
          exact .refl _
    | block depth =>
      simp only [Place.next] at h
      split at h
      · cases h
        exact .refl _
      · split at h <;> cases h
        · split <;> exact .refl _
        · exact .refl _
    | keyword start => cases h
    | named message =>
      obtain ⟨-, h⟩ := Option.ite_none_right_eq_some.1 h
      cases h
      exact .refl _

/-- **The messages stand in order**, each where a word "message" is. -/
theorem messagesFrom_sublist : ∀ (tokens : List Token) {place : Place} {messages : List TopMessage},
    messagesFrom place tokens = some messages →
    (messages.map TopMessage.start).Sublist (place.pending ++ keywords tokens)
  | [], place, messages, h => by
    obtain ⟨-, h⟩ := Option.ite_none_right_eq_some.1 h
    cases h
    exact List.nil_sublist _
  | token :: tokens, place, messages, h => by
    obtain ⟨⟨place', opened⟩, hnext, h⟩ := Option.bind_eq_some_iff.1 h
    obtain ⟨rest, hrest, rfl⟩ := Option.map_eq_some_iff.1 h
    have hkey : keywords (token :: tokens) = token.message?.toList ++ keywords tokens := by
      unfold keywords
      cases htoken : token.message? <;> simp [htoken]
    have htail := (messagesFrom_sublist tokens hrest).append_left (opened.toList.map TopMessage.start)
    have hhead := (next_pending hnext).append_right (keywords tokens)
    rw [hkey, List.map_append, ← List.append_assoc]
    rw [← List.append_assoc] at htail
    exact htail.trans hhead

theorem topMessages_starts {text : List Char} {messages : List TopMessage} (h : topMessages text = some messages) :
    (messages.map TopMessage.start).Pairwise Behind ∧
      ∀ message ∈ messages, message.start.takeWhile isWordChar = "message".toList := by
  obtain ⟨tokens, htokens, h⟩ := Option.bind_eq_some_iff.1 h
  obtain ⟨hinOrder, hkey⟩ := lex_keywords _ htokens
  have hsub : (messages.map TopMessage.start).Sublist (keywords tokens) := messagesFrom_sublist tokens h
  exact ⟨hinOrder.1.sublist hsub, fun message hmem => hkey _ (hsub.subset (List.mem_map_of_mem hmem))⟩

/-! ## Lines -/

/-- The places where the lines behind the first begin; a line ends with "\n", "\r\n" or "\r". -/
def laterLines : List Char → List (List Char)
  | [] => []
  | c :: text =>
    if c = '\n' ∨ c = '\r' ∧ text.head? ≠ some '\n' then
      if text = [] then [] else text :: laterLines text
    else laterLines text

/-- The places where the lines begin. -/
def lineStarts (text : List Char) : List (List Char) := if text = [] then [] else text :: laterLines text

/-- The line that begins here, as `readlines` gives it. -/
def lineAt (start : List Char) : List Char := (readlines start).headD []

theorem splitLines_newline (text : List Char) : splitLines ('\n' :: text) = ['\n'] :: splitLines text := by
  rw [splitLines, if_pos rfl]

theorem readlines_newline (text : List Char) : readlines ('\n' :: text) = ['\n'] :: readlines text := by
  rw [readlines, universalNewlines, splitLines_newline, readlines]
  all_goals simp

theorem readlines_crlf (text : List Char) : readlines ('\r' :: '\n' :: text) = ['\n'] :: readlines text := by
  rw [readlines, universalNewlines, splitLines_newline, readlines]

theorem readlines_cr {text : List Char} (h : text.head? ≠ some '\n') :
    readlines ('\r' :: text) = ['\n'] :: readlines text := by
  rw [readlines, universalNewlines, splitLines_newline, readlines]
  rintro rest rfl
  exact h rfl

theorem readlines_cons {c : Char} (text : List Char) (hn : c ≠ '\n') (hr : c ≠ '\r') :
    readlines (c :: text) = (c :: lineAt text) :: (readlines text).tail := by
  rw [readlines, universalNewlines, splitLines, if_neg hn]
  · unfold lineAt readlines
    cases splitLines (universalNewlines text) <;> rfl
  · exact fun _ heq _ => hr heq
  · exact hr

theorem lineAt_cons {c : Char} (text : List Char) (hn : c ≠ '\n') (hr : c ≠ '\r') :
    lineAt (c :: text) = c :: lineAt text := by
  rw [lineAt, readlines_cons text hn hr, List.headD_cons]

theorem readlines_ne_nil {text : List Char} (h : text ≠ []) : readlines text ≠ [] := by
  obtain ⟨c, rest, rfl⟩ := List.exists_cons_of_ne_nil h
  by_cases hn : c = '\n'
  · rw [hn, readlines_newline]
    exact List.cons_ne_nil _ _
  · by_cases hr : c = '\r'
    · subst hr
      by_cases hhead : rest.head? = some '\n'
      · obtain ⟨rest', rfl⟩ := List.head?_eq_some_iff.1 hhead
        rw [readlines_crlf]
        exact List.cons_ne_nil _ _
      · rw [readlines_cr hhead]
        exact List.cons_ne_nil _ _
    · rw [readlines_cons rest hn hr]
      exact List.cons_ne_nil _ _

theorem readlines_of_tail {text : List Char} (h : (readlines text).tail = (laterLines text).map lineAt) :
    readlines text = (lineStarts text).map lineAt := by
  by_cases htext : text = []
  · rw [htext]
    rfl
  · obtain ⟨line, lines, hlines⟩ := List.exists_cons_of_ne_nil (readlines_ne_nil htext)
    rw [lineStarts, if_neg htext, List.map_cons, ← h, lineAt, hlines]
    rfl

theorem tail_readlines : ∀ text : List Char, (readlines text).tail = (laterLines text).map lineAt
  | [] => rfl
  | c :: text => by
    have ih := tail_readlines text
    rw [laterLines]
    by_cases hn : c = '\n'
    · subst hn
      rw [readlines_newline, if_pos (.inl rfl)]
      exact readlines_of_tail ih
    · by_cases hr : c = '\r'
      · subst hr
        by_cases hhead : text.head? = some '\n'
        · obtain ⟨rest, rfl⟩ := List.head?_eq_some_iff.1 hhead
          rw [if_neg (by simp), readlines_crlf]
          rw [readlines_newline] at ih
          exact ih
        · rw [if_pos (.inr ⟨rfl, hhead⟩), readlines_cr hhead]
          exact readlines_of_tail ih
      · rw [if_neg (by simp [hn, hr]), readlines_cons text hn hr]
        exact ih

/-- **The lines of a file**, each at its place. -/
theorem readlines_eq (text : List Char) : readlines text = (lineStarts text).map lineAt :=
  readlines_of_tail (tail_readlines text)

theorem laterLines_inOrder : ∀ text : List Char,
    (laterLines text).Pairwise Behind ∧ ∀ start ∈ laterLines text, Behind text start
  | [] => ⟨.nil, fun _ h => absurd h List.not_mem_nil⟩
  | c :: text => by
    obtain ⟨hpair, hbehind⟩ := laterLines_inOrder text
    rw [laterLines]
    split
    · split
      · exact ⟨.nil, fun _ h => absurd h List.not_mem_nil⟩
      · refine ⟨List.pairwise_cons.2 ⟨hbehind, hpair⟩, fun start hstart => ?_⟩
        rcases List.mem_cons.1 hstart with rfl | hstart
        · exact Nat.lt_succ_self _
        · exact Nat.lt_succ_of_lt (hbehind start hstart)
    · exact ⟨hpair, fun start hstart => Nat.lt_succ_of_lt (hbehind start hstart)⟩

theorem lineStarts_pairwise (text : List Char) : (lineStarts text).Pairwise Behind := by
  unfold lineStarts
  split
  · exact .nil
  · exact List.pairwise_cons.2 ⟨(laterLines_inOrder text).2, (laterLines_inOrder text).1⟩

/-- A line that begins with a word has it whole. -/
theorem startswith_lineAt : ∀ (word : List Char) {start : List Char}, (∀ c ∈ word, c ≠ '\n' ∧ c ≠ '\r') →
    startswith start word = true → startswith (lineAt start) word = true
  | [], _, _, _ => rfl
  | c :: word, start, hword, h => by
    cases start with
    | nil => cases h
    | cons c' start =>
      have hc : c = c' ∧ startswith start word = true := by simpa [startswith] using h
      obtain ⟨rfl, hrest⟩ := hc
      have hne := hword c List.mem_cons_self
      rw [lineAt_cons start hne.1 hne.2]
      have ih := startswith_lineAt word (fun c hc => hword c (List.mem_cons_of_mem _ hc)) hrest
      simpa [startswith] using ih

/-! ## What `parse_proto` finds -/

/-- The message stands at the beginning of a line, with its name as the second word and in capitals. -/
def OnItsLine (upper : Name → Name) (text : List Char) (message : TopMessage) : Prop :=
  message.start ∈ lineStarts text ∧ (split (lineAt message.start))[1]? = some message.name ∧
    upper message.name = message.name

/-- A line that begins with "message" and is not that of one of these has a second word, which is no packet's name. -/
def NoOtherLine (upper : Name → Name) (packet : Name → Bool) (text : List Char) (messages : List TopMessage) : Prop :=
  ∀ start ∈ lineStarts text, startswith (lineAt start) "message".toList = true →
    (∃ message ∈ messages, message.start = start) ∨
      (split (lineAt start))[1]?.any (fun word => !packet (upper word)) = true

instance (upper : Name → Name) (text : List Char) (message : TopMessage) : Decidable (OnItsLine upper text message) :=
  inferInstanceAs (Decidable (_ ∧ _ ∧ _))

instance (upper : Name → Name) (packet : Name → Bool) (text : List Char) (messages : List TopMessage) :
    Decidable (NoOtherLine upper packet text messages) := inferInstanceAs (Decidable (∀ start ∈ _, _))

/-- The packet that `parse_proto` finds on the line that begins here. -/
def packetAt (upper : Name → Name) (packet : Name → Bool) (start : List Char) : Option Name :=
  (messageName upper (lineAt start)).filter packet

theorem filter_messageNames (upper : Name → Name) (packet : Name → Bool) (text : List Char) :
    (messageNames upper text).filter packet = (lineStarts text).filterMap (packetAt upper packet) := by
  rw [messageNames, readlines_eq, List.filterMap_map, List.filter_filterMap]
  rfl

variable {upper : Name → Name} {packet : Name → Bool} {text : List Char} {messages : List TopMessage}
  {message : TopMessage}

theorem startswith_message (h : message.start.takeWhile isWordChar = "message".toList) :
    startswith (lineAt message.start) "message".toList = true := by
  refine startswith_lineAt _ (by simp) (List.isPrefixOf_iff_prefix.2 ?_)
  rw [← h]
  exact List.takeWhile_prefix _

theorem packetAt_message (h : message.start.takeWhile isWordChar = "message".toList)
    (hline : OnItsLine upper text message) (hpacket : packet message.name = true) :
    packetAt upper packet message.start = some message.name := by
  rw [packetAt, messageName, if_pos (startswith_message h), hline.2.1, Option.map_some, hline.2.2, Option.filter_some,
    if_pos hpacket]

/-- **The lines with a packet are those of the messages.** -/
theorem lines_eq (hstarts : (messages.map TopMessage.start).Pairwise Behind)
    (hfound : ∀ message ∈ messages, message.start ∈ lineStarts text ∧
      packetAt upper packet message.start = some message.name)
    (hother : NoOtherLine upper packet text messages) :
    (lineStarts text).filter (fun start => (packetAt upper packet start).isSome) = messages.map TopMessage.start := by
  refine ((lineStarts_pairwise text).sublist List.filter_sublist).eq_of_mem_iff hstarts (fun start => ?_)
  rw [List.mem_filter, List.mem_map]
  constructor
  · rintro ⟨hstart, hsome⟩
    obtain ⟨name, hname⟩ := Option.isSome_iff_exists.1 hsome
    obtain ⟨hmessage, hpacket⟩ := Option.filter_eq_some_iff.1 hname
    obtain ⟨hstartswith, hword⟩ := Option.ite_none_right_eq_some.1 hmessage
    rcases hother start hstart hstartswith with hmem | hno
    · exact hmem
    · obtain ⟨word, hsecond, hno⟩ := (Option.any_eq_true _ _).1 hno
      rw [hsecond, Option.map_some] at hword
      cases hword
      rw [hpacket] at hno
      cases hno
  · rintro ⟨message, hmem, rfl⟩
    rw [(hfound message hmem).2]
    exact ⟨(hfound message hmem).1, rfl⟩

theorem packets_eq (hstarts : (messages.map TopMessage.start).Pairwise Behind)
    (hfound : ∀ message ∈ messages, message.start ∈ lineStarts text ∧
      packetAt upper packet message.start = some message.name)
    (hother : NoOtherLine upper packet text messages) :
    (messageNames upper text).filter packet = messages.map TopMessage.name := by
  have hsome : (lineStarts text).filterMap (packetAt upper packet) =
      ((lineStarts text).filter (fun start => (packetAt upper packet start).isSome)).filterMap
        (packetAt upper packet) := by
    rw [List.filterMap_filter]
    refine List.filterMap_congr (fun start _ => ?_)
    cases packetAt upper packet start <;> rfl
  rw [filter_messageNames, hsome, lines_eq hstarts hfound hother, List.filterMap_map, ← List.filterMap_eq_map]
  exact List.filterMap_congr (fun message hmem => (hfound message hmem).2)

theorem named_of_lines (hfound : ∀ message ∈ messages, OnItsLine upper text message)
    (hother : NoOtherLine upper packet text messages) : ∀ line ∈ readlines text, Named line := by
  intro line hline hstartswith
  rw [readlines_eq] at hline
  obtain ⟨start, hstart, rfl⟩ := List.mem_map.1 hline
  rcases hother start hstart hstartswith with ⟨message, hmem, rfl⟩ | hno
  · exact (List.getElem?_eq_some_iff.1 (hfound message hmem).2.1).1
  · obtain ⟨word, hsecond, -⟩ := (Option.any_eq_true _ _).1 hno
    exact (List.getElem?_eq_some_iff.1 hsecond).1

/-- **Every packet is found**, in the order of the file, once and by its name, in a file whose messages with a prefix
stand on lines of their own. -/
theorem declared_messages_listed {startId : Nat} {recvPrefix sendPrefix : Name} (h : topMessages text = some messages)
    (hlines : ∀ message ∈ messages, (ProtoParser.new startId recvPrefix sendPrefix).prefixed message.name = true →
      OnItsLine upper text message)
    (hother : NoOtherLine upper (ProtoParser.new startId recvPrefix sendPrefix).prefixed text
      (messages.filter (fun message => (ProtoParser.new startId recvPrefix sendPrefix).prefixed message.name))) :
    ∃ parser, ProtoParser.parseProto upper (ProtoParser.new startId recvPrefix sendPrefix) text = some parser ∧
      parser.totalPkt.map Packet.name =
        (messages.map TopMessage.name).filter (ProtoParser.new startId recvPrefix sendPrefix).prefixed := by
  obtain ⟨hstarts, hkeyword⟩ := topMessages_starts h
  have hdeclared : ∀ message ∈ messages.filter
      (fun message => (ProtoParser.new startId recvPrefix sendPrefix).prefixed message.name),
      OnItsLine upper text message := fun message hmem =>
    hlines message (List.mem_filter.1 hmem).1 (List.mem_filter.1 hmem).2
  refine ⟨_, (ProtoParser.parseProto_eq_some upper _ _ text).2 ⟨named_of_lines hdeclared hother, rfl⟩, ?_⟩
  show ([] ++ numbered startId _).map Packet.name = _
  rw [List.nil_append, numbered_names, List.filter_map]
  refine packets_eq (hstarts.sublist (List.filter_sublist.map _)) (fun message hmem => ⟨(hdeclared message hmem).1, ?_⟩)
    hother
  exact packetAt_message (hkeyword message (List.mem_filter.1 hmem).1) (hdeclared message hmem) (List.mem_filter.1 hmem).2

def messageS : List Char := "message S_LOGIN \x7b bool success = 1; \x7d\n".toList

def messageC : List Char := "message C_LOGIN\n\x7b\n\x7d\n".toList ++ messageS

/-- Two messages, behind a comment that begins a line with "message". -/
def twoMessages : List Char := "syntax = \"proto3\";\n/* the first\nmessage */\n".toList ++ messageC

theorem declared_messages_listed_two : ∃ parser,
    ProtoParser.parseProto asciiUpper (ProtoParser.new 1000 "C_".toList "S_".toList) twoMessages = some parser ∧
      parser.totalPkt.map Packet.name = ["C_LOGIN".toList, "S_LOGIN".toList] := by
  have hmessages : topMessages twoMessages =
      some [⟨"C_LOGIN".toList, messageC⟩, ⟨"S_LOGIN".toList, messageS⟩] := by decide +kernel
  exact declared_messages_listed hmessages (by decide +kernel) (by decide +kernel)

/-- No blank before the brace. -/
def braceJoined : List Char := "syntax = \"proto3\";\nmessage C_LOGIN\x7b\n\x7d\n".toList

/-- The name on the next line. -/
def nameBelow : List Char := "syntax = \"proto3\";\nmessage\nC_LOGIN \x7b\n\x7d\n".toList

/-- **A name with a brace, and a script that raises**, for two layouts of one file. -/
theorem brace_joins_name :
    (topMessages braceJoined).map (List.map TopMessage.name) = some ["C_LOGIN".toList] ∧
    (ProtoParser.parseProto asciiUpper (ProtoParser.new 1000 "C_".toList "S_".toList) braceJoined).map
      (fun parser => parser.totalPkt.map Packet.name) = some ["C_LOGIN\x7b".toList] ∧
    (topMessages nameBelow).map (List.map TopMessage.name) = some ["C_LOGIN".toList] ∧
    ProtoParser.parseProto asciiUpper (ProtoParser.new 1000 "C_".toList "S_".toList) nameBelow = none := by
  decide +kernel

end PacketGenerator
end Geon
