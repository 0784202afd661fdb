import QuiPanel.MtprotoManager
import QuiPanel.Library.Toml
import QuiPanel.Library.HostPort

namespace QuiPanel

namespace Mtproto

open List

open Toml (Entry Value Block)

section specification

def text (doc : List Entry) (table key : String) : String :=
  match Toml.get doc table.toList key.toList with
  | some (.str s) => String.ofList s
  | _ => ""

def flag (doc : List Entry) (table key : String) : Bool :=
  match Toml.get doc table.toList key.toList with
  | some (.bool b) => b
  | _ => false

def number (doc : List Entry) (table key : String) : Int :=
  match Toml.get doc table.toList key.toList with
  | some (.int n) => n
  | _ => 0

def texts (doc : List Entry) (table key : String) : List String :=
  match Toml.get doc table.toList key.toList with
  | some (.strs l) => l.map String.ofList
  | _ => []

def Instance.proxies (inst : Instance) : List String :=
  if inst.routeThroughXray then ["socks5://127.0.0.1:" ++ toString inst.xrayRoutePort] else []

structure Recovers (inst : Instance) (metricsPort : Nat) (doc : List Entry) : Prop where
  secret : text doc "" "secret" = inst.secret
  bindTo : HostPort.splitHostPort (text doc "" "bind-to").toList =
    some (HostPort.unbracket inst.address.toList, (toString inst.port).toList)
  debug : flag doc "" "debug" = inst.debug
  proxyProtocolListener : flag doc "" "proxy-protocol-listener" = inst.proxyProtocolListener
  preferIP : text doc "" "prefer-ip" = inst.preferIP
  frontingIP : text doc "domain-fronting" "ip" = inst.frontingIP
  frontingPort : number doc "domain-fronting" "port" = inst.frontingPort
  frontingProxyProtocol : flag doc "domain-fronting" "proxy-protocol" = inst.frontingProxyProtocol
  proxies : texts doc "network" "proxies" = inst.proxies
  metrics : text doc "stats.prometheus" "bind-to" = "127.0.0.1:" ++ toString metricsPort

def ParsesBack (isPrint : Char → Bool) (inst : Instance) (metricsPort : Nat) : Prop :=
  ∃ doc, Toml.read (renderConfig isPrint inst metricsPort).toList = some doc ∧ Recovers inst metricsPort doc

def Plain (s : String) : Prop := s.toList.all Toml.safe = true

instance (s : String) : Decidable (Plain s) := inferInstanceAs (Decidable (_ = true))

structure Renderable (inst : Instance) : Prop where
  secret : Plain inst.secret
  listen : Plain inst.address ∧ HostPort.Form inst.address.toList
  preferIP : Plain inst.preferIP
  frontingIP : Plain inst.frontingIP
  frontingPort : 0 ≤ inst.frontingPort
  route : inst.routeThroughXray = true → 0 < inst.xrayRoutePort

end specification

section lines

variable (isPrint : Char → Bool) (inst : Instance) (metricsPort : Nat)

def linesWhen (b : Bool) (ls : List (List Char)) : List (List Char) := if b then ls else []

def quotedLine (label s : String) : List Char := label.toList ++ GoQuote.quote isPrint s.toList

def hasFronting : Bool := inst.frontingIP ≠ "" || 0 < inst.frontingPort || inst.frontingProxyProtocol

def frontingLines : List (List Char) :=
  [[], "[domain-fronting]".toList] ++
  linesWhen (inst.frontingIP ≠ "") [quotedLine isPrint "ip = " inst.frontingIP] ++
  linesWhen (0 < inst.frontingPort) ["port = ".toList ++ (toString inst.frontingPort).toList] ++
  linesWhen inst.frontingProxyProtocol ["proxy-protocol = true".toList]

def routeLines : List (List Char) :=
  [[], "[network]".toList,
    "proxies = [\"socks5://127.0.0.1:".toList ++ (toString inst.xrayRoutePort).toList ++ "\"]".toList]

def metricsLines : List (List Char) :=
  [[], "[stats.prometheus]".toList, "enabled = true".toList,
    "bind-to = \"127.0.0.1:".toList ++ (toString metricsPort).toList ++ "\"".toList,
    "http-path = \"/metrics\"".toList, "metric-prefix = \"mtg\"".toList]

def configLines : List (List Char) :=
  [quotedLine isPrint "secret = " inst.secret] ++ [quotedLine isPrint "bind-to = " inst.bindTo] ++
  linesWhen inst.debug ["debug = true".toList] ++
  linesWhen inst.proxyProtocolListener ["proxy-protocol-listener = true".toList] ++
  linesWhen (inst.preferIP ≠ "") [quotedLine isPrint "prefer-ip = " inst.preferIP] ++
  linesWhen (hasFronting inst) (frontingLines isPrint inst) ++
  linesWhen (inst.routeThroughXray && 0 < inst.xrayRoutePort) (routeLines inst) ++
  metricsLines metricsPort

variable {isPrint inst metricsPort}

def Ends (s : String) (ls : List (List Char)) : Prop := s.toList = ls.flatMap (· ++ ['\n'])

theorem Ends.append {s s' : String} {ls ls' : List (List Char)} (h : Ends s ls) (h' : Ends s' ls') :
    Ends (s ++ s') (ls ++ ls') := by
  rw [Ends, String.toList_append, flatMap_append, h, h']

theorem Ends.when {s : String} {ls : List (List Char)} (b : Bool) (h : Ends s ls) :
    Ends (whenText b s) (linesWhen b ls) := by
  cases b with
  | true => exact h
  | false => rfl

theorem ends_quoted (label s : String) : Ends (label ++ quoted isPrint s ++ "\n") [quotedLine isPrint label s] := by
  rw [Ends, String.toList_append, String.toList_append, quoted, String.toList_ofList]
  simp [quotedLine]

theorem renderConfig_lines : Ends (renderConfig isPrint inst metricsPort) (configLines isPrint inst metricsPort) := by
  have hfronting : Ends (domainFronting isPrint inst) (linesWhen (hasFronting inst) (frontingLines isPrint inst)) := by
    refine .when _ (.append (.append (.append ?_ (.when _ (ends_quoted _ _))) (.when _ ?_)) (.when _ ?_))
    · rfl
    · rw [Ends, String.toList_append, String.toList_append]
      simp
    · rfl
  have hroute : Ends ("\n[network]\nproxies = [\"socks5://127.0.0.1:" ++ toString inst.xrayRoutePort ++ "\"]\n")
      (routeLines inst) := by
    rw [Ends, String.toList_append, String.toList_append]
    simp [routeLines]
  have hmetrics : Ends ("\n[stats.prometheus]\nenabled = true\nbind-to = \"127.0.0.1:" ++ toString metricsPort ++
      "\"\nhttp-path = \"/metrics\"\nmetric-prefix = \"mtg\"\n") (metricsLines metricsPort) := by
    rw [Ends, String.toList_append, String.toList_append]
    simp [metricsLines]
  have hdebug : Ends "debug = true\n" ["debug = true".toList] := by rfl
  have hproxy : Ends "proxy-protocol-listener = true\n" ["proxy-protocol-listener = true".toList] := by rfl
  refine .append (.append (.append (.append (.append (.append (.append ?_ ?_) ?_) ?_) ?_) ?_) ?_) ?_
  · exact ends_quoted _ _
  · exact ends_quoted _ _
  · exact hdebug.when _
  · exact hproxy.when _
  · exact (ends_quoted _ _).when _
  · exact hfronting
  · exact hroute.when _
  · exact hmetrics

theorem int_chars (i : Int) : ∀ c ∈ (toString i).toList, c.isDigit = true ∨ c = '-' := by
  have hdigits (n : Nat) : ∀ c ∈ (toString n).toList, c.isDigit = true := by
    intro c hc
    rw [Nat.toString_eq_repr, Nat.toList_repr] at hc
    exact Nat.isDigit_of_mem_toDigits (by decide) (by decide) hc
  intro c hc
  cases i with
  | ofNat n => exact .inl (hdigits n c hc)
  | negSucc n =>
    have hsign : (toString (Int.negSucc n)).toList = '-' :: (toString (n + 1)).toList := by
      rw [show toString (Int.negSucc n) = "-" ++ toString (n + 1) from rfl, String.toList_append]
      rfl
    rw [hsign] at hc
    exact (mem_cons.mp hc).symm.imp_left (hdigits (n + 1) c)

theorem pos_digits {i : Int} (h : 0 < i) : (toString i).toList = Nat.toDigits 10 i.toNat := by
  cases i with
  | ofNat n => exact Nat.toList_repr
  | negSucc n => exact absurd h (by omega)

theorem line_not_mem_int (i : Int) : '\n' ∉ (toString i).toList := by
  intro h
  rcases int_chars i _ h with hdigit | hsign
  · cases hdigit
  · cases hsign

theorem line_not_mem_nat (n : Nat) : '\n' ∉ (toString n).toList := line_not_mem_int n

theorem line_not_mem_when {b : Bool} {ls : List (List Char)} (h : ∀ l ∈ ls, '\n' ∉ l) :
    ∀ l ∈ linesWhen b ls, '\n' ∉ l := by
  cases b with
  | true => exact h
  | false => exact nofun

theorem line_not_mem (hprint : isPrint '\n' = false) : ∀ l ∈ configLines isPrint inst metricsPort, '\n' ∉ l := by
  have hquoted (label s : String) (hlabel : '\n' ∉ label.toList) : ∀ l ∈ [quotedLine isPrint label s], '\n' ∉ l := by
    intro l hl
    rw [mem_singleton.mp hl, quotedLine, mem_append, not_or]
    exact ⟨hlabel, GoQuote.line_not_mem_quote hprint _⟩
  have hone {l : List Char} (h : '\n' ∉ l) : ∀ l' ∈ [l], '\n' ∉ l' := by
    intro l' hl'
    rwa [mem_singleton.mp hl']
  have happend {ls ls' : List (List Char)} (h : ∀ l ∈ ls, '\n' ∉ l) (h' : ∀ l ∈ ls', '\n' ∉ l) :
      ∀ l ∈ ls ++ ls', '\n' ∉ l := by
    intro l hl
    exact (mem_append.mp hl).elim (h l) (h' l)
  have haround {a b : String} {l : List Char} (ha : '\n' ∉ a.toList) (hl : '\n' ∉ l) (hb : '\n' ∉ b.toList) :
      '\n' ∉ a.toList ++ l ++ b.toList := by
    rw [mem_append, mem_append, not_or, not_or]
    exact ⟨⟨ha, hl⟩, hb⟩
  have hfronting : ∀ l ∈ frontingLines isPrint inst, '\n' ∉ l := by
    refine happend (happend (happend ?_ (line_not_mem_when (hquoted _ _ (by decide)))) (line_not_mem_when (hone ?_)))
      (line_not_mem_when (hone (by decide)))
    · decide
    · rw [mem_append, not_or]
      exact ⟨by decide, line_not_mem_int _⟩
  have hroute : ∀ l ∈ routeLines inst, '\n' ∉ l := by
    refine forall_mem_cons.mpr ⟨by decide, forall_mem_cons.mpr ⟨by decide, hone ?_⟩⟩
    exact haround (by decide) (line_not_mem_int _) (by decide)
  have hmetrics : ∀ l ∈ metricsLines metricsPort, '\n' ∉ l := by
    refine forall_mem_cons.mpr ⟨by decide, forall_mem_cons.mpr ⟨by decide, ?_⟩⟩
    refine forall_mem_cons.mpr ⟨by decide, forall_mem_cons.mpr ⟨?_, by decide⟩⟩
    exact haround (by decide) (line_not_mem_nat _) (by decide)
  refine happend (happend (happend (happend (happend (happend (happend ?_ ?_) ?_) ?_) ?_) ?_) ?_) hmetrics
  · exact hquoted _ _ (by decide)
  · exact hquoted _ _ (by decide)
  · exact line_not_mem_when (hone (by decide))
  · exact line_not_mem_when (hone (by decide))
  · exact line_not_mem_when (hquoted _ _ (by decide))
  · exact line_not_mem_when hfronting
  · exact line_not_mem_when hroute

end lines

section blocks

variable {isPrint : Char → Bool} {inst : Instance} {metricsPort : Nat}

def entry (table key : String) (v : Value) : Entry := ⟨table.toList, key.toList, v⟩

def entriesWhen (b : Bool) (es : List Entry) : List Entry := if b then es else []

def frontingEntries (inst : Instance) : List Entry :=
  entriesWhen (inst.frontingIP ≠ "") [entry "domain-fronting" "ip" (.str inst.frontingIP.toList)] ++
  entriesWhen (0 < inst.frontingPort) [entry "domain-fronting" "port" (.int inst.frontingPort)] ++
  entriesWhen inst.frontingProxyProtocol [entry "domain-fronting" "proxy-protocol" (.bool true)]

def configEntries (inst : Instance) (metricsPort : Nat) : List Entry :=
  [entry "" "secret" (.str inst.secret.toList)] ++ [entry "" "bind-to" (.str inst.bindTo.toList)] ++
  entriesWhen inst.debug [entry "" "debug" (.bool true)] ++
  entriesWhen inst.proxyProtocolListener [entry "" "proxy-protocol-listener" (.bool true)] ++
  entriesWhen (inst.preferIP ≠ "") [entry "" "prefer-ip" (.str inst.preferIP.toList)] ++
  entriesWhen (hasFronting inst) (frontingEntries inst) ++
  entriesWhen (inst.routeThroughXray && 0 < inst.xrayRoutePort)
    [entry "network" "proxies" (.strs [("socks5://127.0.0.1:" ++ toString inst.xrayRoutePort).toList])] ++
  [entry "stats.prometheus" "enabled" (.bool true),
    entry "stats.prometheus" "bind-to" (.str ("127.0.0.1:" ++ toString metricsPort).toList),
    entry "stats.prometheus" "http-path" (.str "/metrics".toList),
    entry "stats.prometheus" "metric-prefix" (.str "mtg".toList)]

theorem int_code (i : Int) : ∀ c ∈ (toString i).toList, 45 ≤ c.toNat ∧ c.toNat ≤ 57 := by
  intro c hc
  rcases int_chars i c hc with hdigit | rfl
  · simp only [Char.isDigit, Bool.and_eq_true, decide_eq_true_eq] at hdigit
    have hlow : 48 ≤ c.toNat := hdigit.1
    have hhigh : c.toNat ≤ 57 := hdigit.2
    omega
  · decide

variable {es : List Entry} {c : Char}

theorem int_ne (i : Int) (hc : c.toNat < 45 ∨ 57 < c.toNat) : c ∉ (toString i).toList := by
  intro hin
  have hcode := int_code i c hin
  omega

theorem int_raw (i : Int) : ∀ c ∈ (toString i).toList, c ≠ '"' ∧ c ≠ '\\' ∧ Toml.control c = false := by
  intro c hc
  have hcode := int_code i c hc
  refine ⟨?_, ?_, ?_⟩
  · rintro rfl
    exact int_ne i (by decide) hc
  · rintro rfl
    exact int_ne i (by decide) hc
  · simp only [Toml.control, Bool.or_eq_false_iff, Bool.and_eq_false_iff, decide_eq_false_iff_not]
    exact ⟨.inl (by omega), by omega⟩

theorem int_safe (i : Int) : (toString i).toList.all Toml.safe = true := by
  refine all_eq_true.mpr fun c hc => ?_
  have hcode := int_code i c hc
  have hcontrol : GoQuote.control c = false := by
    simp only [GoQuote.control, Bool.or_eq_false_iff, decide_eq_false_iff_not]
    exact ⟨by omega, by omega⟩
  rw [Toml.safe, hcontrol]
  rfl

theorem quoted_line (hprint : ∀ c, GoQuote.control c = true → isPrint c = false) {label : String}
    {key : List Char} (hlabel : label.toList = c :: key ++ [' ', '=', ' ']) (hstart : Toml.keyStart c = true)
    (hbare : ∀ d ∈ key, Toml.bareKey d = true) (s : String) : Toml.readLine (quotedLine isPrint label s) =
      if s.toList.all Toml.safe then some (.pair (c :: key) (.str s.toList)) else none := by
  have hline : quotedLine isPrint label s = c :: key ++ ' ' :: '=' :: ' ' :: GoQuote.quote isPrint s.toList := by
    rw [quotedLine, hlabel, append_assoc]
    rfl
  have hhead : ∀ d, (GoQuote.quote isPrint s.toList).head? = some d → Toml.space d = false := by
    intro d hd
    rw [← Option.some.inj hd]
    rfl
  rw [Toml.readLine_text hstart hbare hhead hline, Toml.readValue_quote hprint]
  cases s.toList.all Toml.safe <;> rfl

theorem quoted_block (hprint : ∀ c, GoQuote.control c = true → isPrint c = false) (t : List Char)
    (label key : String) {rest : List Char} (hlabel : label.toList = key.toList ++ [' ', '=', ' '])
    (hkey : key.toList = c :: rest) (hstart : Toml.keyStart c = true) (hbare : ∀ d ∈ rest, Toml.bareKey d = true)
    (s : String) : Block t [quotedLine isPrint label s] t
      (if s.toList.all Toml.safe then some [⟨t, key.toList, .str s.toList⟩] else none) := by
  rw [hkey] at hlabel ⊢
  have hline := quoted_line hprint hlabel hstart hbare s
  cases hsafe : s.toList.all Toml.safe with
  | true =>
    rw [hsafe] at hline
    exact .pair t hline
  | false =>
    rw [hsafe] at hline
    exact .bad t hline

theorem stay_block (b : Bool) {t : List Char} {ls : List (List Char)} {r : Option (List Entry)}
    (h : b = true → Block t ls t r) : Block t (linesWhen b ls) t (if b then r else some []) := by
  have hblock := Block.when b h
  rwa [ite_self] at hblock

theorem some_block (b : Bool) {t : List Char} {ls : List (List Char)}
    (h : b = true → Block t ls t (some es)) : Block t (linesWhen b ls) t (some (entriesWhen b es)) := by
  have hblock := stay_block b h
  cases b <;> exact hblock

theorem spelled {cs : List Char} {p : Char → Bool} (h : cs.all p = true) : ∀ c ∈ cs, p c = true :=
  all_eq_true.mp h

theorem flag_block (t : List Char) {line : String} {key : String} {rest : List Char}
    (hline : line.toList = key.toList ++ ' ' :: '=' :: ' ' :: "true".toList) (hkey : key.toList = c :: rest)
    (hstart : Toml.keyStart c = true) (hbare : ∀ d ∈ rest, Toml.bareKey d = true) :
    Block t [line.toList] t (some [⟨t, key.toList, .bool true⟩]) := by
  rw [hkey] at hline ⊢
  refine .pair t (Toml.readLine_pair hstart hbare ?_ hline rfl)
  intro d hd
  rw [← Option.some.inj hd]
  rfl

theorem port_block {i : Int} (h : 0 < i) (t : List Char) : Block t ["port = ".toList ++ (toString i).toList] t
    (some [⟨t, "port".toList, .int i⟩]) := by
  have hvalue : Toml.readValue (toString i).toList = some (.int i, []) := by
    rw [pos_digits h, Toml.readValue_digits, Int.toNat_of_nonneg (le_of_lt h)]
  refine .pair t (@Toml.readLine_pair "ort".toList _ _ 'p' _ rfl (spelled rfl) ?_ rfl hvalue)
  intro d hd
  rcases int_chars i d (mem_of_mem_head? hd) with hdigit | rfl
  · refine Bool.eq_false_iff.mpr fun hspace => ?_
    simp only [Toml.space, Bool.or_eq_true, decide_eq_true_eq] at hspace
    rcases hspace with rfl | rfl <;> cases hdigit
  · rfl

theorem unsafe_ne {s : String} (h : s.toList.all Toml.safe = false) : decide (s ≠ "") = true := by
  rw [decide_eq_true_eq]
  rintro rfl
  cases h

theorem text_some {s : String} : (if decide (s ≠ "") = true then
      (if s.toList.all Toml.safe then some es else none) else some []) =
    if s.toList.all Toml.safe then some (entriesWhen (s ≠ "") es) else none := by
  cases hsafe : s.toList.all Toml.safe with
  | true =>
    cases hne : decide (s ≠ "") <;> rfl
  | false =>
    rw [unsafe_ne hsafe]
    rfl

theorem fronting_block (hprint : ∀ c, GoQuote.control c = true → isPrint c = false) (inst : Instance)
    (t : List Char) :
    Block t (frontingLines isPrint inst) "domain-fronting".toList
      (if inst.frontingIP.toList.all Toml.safe then some (frontingEntries inst) else none) := by
  have hhead : Block t [[], "[domain-fronting]".toList] "domain-fronting".toList (some []) :=
    (Block.blank t).append (.table t rfl)
  have hip := quoted_block hprint "domain-fronting".toList "ip = " "ip" rfl rfl rfl (spelled rfl) inst.frontingIP
  have hproxy : Block "domain-fronting".toList ["proxy-protocol = true".toList] "domain-fronting".toList
      (some [entry "domain-fronting" "proxy-protocol" (.bool true)]) := flag_block _ rfl rfl rfl (spelled rfl)
  have hport := some_block (decide (0 < inst.frontingPort)) fun hport =>
    port_block (decide_eq_true_eq.mp hport) "domain-fronting".toList
  have hblock := ((hhead.append (stay_block (inst.frontingIP ≠ "") fun _ => hip)).append hport).append
    (some_block inst.frontingProxyProtocol fun _ => hproxy)
  rw [text_some] at hblock
  cases hsafe : inst.frontingIP.toList.all Toml.safe with
  | true =>
    rw [hsafe] at hblock
    exact hblock
  | false =>
    rw [hsafe] at hblock
    exact hblock

theorem raw_append {a : List Char} {i : Int}
    (ha : a.all (fun c => c != '"' && (c != '\\' && !Toml.control c)) = true) :
    ∀ c ∈ a ++ (toString i).toList, c ≠ '"' ∧ c ≠ '\\' ∧ Toml.control c = false := by
  refine forall_mem_append.mpr ⟨fun c hc => ?_, int_raw i⟩
  have hraw := all_eq_true.mp ha c hc
  simp only [Bool.and_eq_true, bne_iff_ne, ne_eq, Bool.not_eq_true'] at hraw
  exact hraw

theorem route_block (inst : Instance) (t : List Char) : Block t (routeLines inst) "network".toList
    (some [entry "network" "proxies" (.strs [("socks5://127.0.0.1:" ++ toString inst.xrayRoutePort).toList])]) := by
  have hraw := raw_append (i := inst.xrayRoutePort) (a := "socks5://127.0.0.1:".toList) rfl
  have hline : Toml.readLine ("proxies = [\"socks5://127.0.0.1:".toList ++ (toString inst.xrayRoutePort).toList ++
      "\"]".toList) = some (.pair "proxies".toList
        (.strs ["socks5://127.0.0.1:".toList ++ (toString inst.xrayRoutePort).toList])) := by
    refine @Toml.readLine_pair "roxies".toList _ _ 'p' _ rfl (spelled rfl) ?_ ?_ (Toml.readValue_one hraw)
    · intro d hd
      rw [← Option.some.inj hd]
      rfl
    · simp
  rw [String.toList_append]
  exact ((Block.blank t).append (.table t rfl)).append (.pair _ hline)

theorem metrics_block (metricsPort : Nat) (t : List Char) : Block t (metricsLines metricsPort) "stats.prometheus".toList
    (some [entry "stats.prometheus" "enabled" (.bool true),
      entry "stats.prometheus" "bind-to" (.str ("127.0.0.1:" ++ toString metricsPort).toList),
      entry "stats.prometheus" "http-path" (.str "/metrics".toList),
      entry "stats.prometheus" "metric-prefix" (.str "mtg".toList)]) := by
  have hraw := raw_append (i := metricsPort) (a := "127.0.0.1:".toList) rfl
  have hline : Toml.readLine ("bind-to = \"127.0.0.1:".toList ++ (toString metricsPort).toList ++ "\"".toList) =
      some (.pair "bind-to".toList (.str ("127.0.0.1:".toList ++ (toString metricsPort).toList))) := by
    refine @Toml.readLine_pair "ind-to".toList _ _ 'b' _ rfl (spelled rfl) ?_ ?_ (Toml.readValue_raw hraw)
    · intro d hd
      rw [← Option.some.inj hd]
      rfl
    · simp
  have henabled : Block "stats.prometheus".toList ["enabled = true".toList] "stats.prometheus".toList
      (some [entry "stats.prometheus" "enabled" (.bool true)]) := flag_block _ rfl rfl rfl (spelled rfl)
  have hpath : Block "stats.prometheus".toList ["http-path = \"/metrics\"".toList] "stats.prometheus".toList
      (some [entry "stats.prometheus" "http-path" (.str "/metrics".toList)]) := .pair _ rfl
  have hprefix : Block "stats.prometheus".toList ["metric-prefix = \"mtg\"".toList] "stats.prometheus".toList
      (some [entry "stats.prometheus" "metric-prefix" (.str "mtg".toList)]) := .pair _ rfl
  rw [String.toList_append]
  have hhead : Block t [[], "[stats.prometheus]".toList] "stats.prometheus".toList (some []) :=
    (Block.blank t).append (.table t rfl)
  exact (((hhead.append henabled).append (.pair _ hline)).append hpath).append hprefix

theorem fronting_some : (if hasFronting inst = true then
      (if inst.frontingIP.toList.all Toml.safe then some es else none) else some []) =
    if inst.frontingIP.toList.all Toml.safe then some (entriesWhen (hasFronting inst) es) else none := by
  cases hsafe : inst.frontingIP.toList.all Toml.safe with
  | true =>
    cases hfronting : hasFronting inst <;> rfl
  | false =>
    have hfronting : hasFronting inst = true := by
      rw [hasFronting, unsafe_ne hsafe]
      rfl
    rw [hfronting]
    rfl

def safeText (inst : Instance) : Bool :=
  inst.secret.toList.all Toml.safe && inst.bindTo.toList.all Toml.safe && inst.preferIP.toList.all Toml.safe &&
    inst.frontingIP.toList.all Toml.safe

theorem config_lines (hprint : ∀ c, GoQuote.control c = true → isPrint c = false) :
    Toml.readLines [] (configLines isPrint inst metricsPort ++ [[]]) =
      if safeText inst then some (configEntries inst metricsPort) else none := by
  have hsecret := quoted_block hprint "".toList "secret = " "secret" rfl rfl rfl (spelled rfl) inst.secret
  have hbind := quoted_block hprint "".toList "bind-to = " "bind-to" rfl rfl rfl (spelled rfl) inst.bindTo
  have hprefer := quoted_block hprint "".toList "prefer-ip = " "prefer-ip" rfl rfl rfl (spelled rfl) inst.preferIP
  have hdebug : Block "".toList ["debug = true".toList] "".toList (some [entry "" "debug" (.bool true)]) :=
    flag_block _ rfl rfl rfl (spelled rfl)
  have hproxy : Block "".toList ["proxy-protocol-listener = true".toList] "".toList
      (some [entry "" "proxy-protocol-listener" (.bool true)]) := flag_block _ rfl rfl rfl (spelled rfl)
  have htop := (((hsecret.append hbind).append (some_block inst.debug fun _ => hdebug)).append
    (some_block inst.proxyProtocolListener fun _ => hproxy)).append (stay_block (inst.preferIP ≠ "") fun _ => hprefer)
  have hfronting := Block.when (hasFronting inst) fun _ => fronting_block hprint inst "".toList
  have hall := ((htop.append hfronting).append
    (Block.when (inst.routeThroughXray && 0 < inst.xrayRoutePort) fun _ => route_block inst _)).append
    (metrics_block metricsPort _)
  have hread := hall.read
  rw [text_some, fronting_some] at hread
  have hroute (b : Bool) (es : List Entry) : (if b then some es else some []) = some (entriesWhen b es) := by
    cases b <;> rfl
  rw [hroute] at hread
  refine hread.trans ?_
  rw [safeText]
  cases inst.secret.toList.all Toml.safe
  · rfl
  cases inst.bindTo.toList.all Toml.safe
  · rfl
  cases inst.preferIP.toList.all Toml.safe
  · rfl
  cases inst.frontingIP.toList.all Toml.safe
  · rfl
  · rfl

end blocks

section lookups

variable {isPrint : Char → Bool} {inst : Instance} {metricsPort : Nat} {table key : String}

def look (es : List Entry) (table key : String) : Option Value := Toml.get es table.toList key.toList

@[simp] theorem look_append (es es' : List Entry) : look (es ++ es') table key =
    (look es table key).or (look es' table key) := by
  rw [look, look, look, Toml.get, find?_append, Option.map_or]
  rfl

@[simp] theorem look_when (b : Bool) (es : List Entry) : look (entriesWhen b es) table key =
    if b then look es table key else none := by
  cases b <;> rfl

@[simp] theorem look_cons (t k : String) (v : Value) (es : List Entry) : look (entry t k v :: es) table key =
    if t = table ∧ k = key then some v else look es table key := by
  have hkeys : ((entry t k v).table = table.toList ∧ (entry t k v).key = key.toList) ↔ t = table ∧ k = key :=
    and_congr String.toList_inj String.toList_inj
  rw [look, Toml.get, find?_cons, decide_eq_decide.mpr hkeys]
  by_cases h : t = table ∧ k = key
  · rw [if_pos h, decide_eq_true h]
    rfl
  · rw [if_neg h, decide_eq_false h]
    rfl

@[simp] theorem look_nil : look [] table key = none := rfl

def allKeys : List (String × String) :=
  [("", "secret"), ("", "bind-to"), ("", "debug"), ("", "proxy-protocol-listener"), ("", "prefer-ip"),
    ("domain-fronting", "ip"), ("domain-fronting", "port"), ("domain-fronting", "proxy-protocol"),
    ("network", "proxies"), ("stats.prometheus", "enabled"), ("stats.prometheus", "bind-to"),
    ("stats.prometheus", "http-path"), ("stats.prometheus", "metric-prefix")]

def keyOf (e : Entry) : List Char × List Char := (e.table, e.key)

theorem when_sublist (b : Bool) (es : List Entry) : (entriesWhen b es).Sublist es := by
  cases b with
  | true => exact .refl _
  | false => exact nil_sublist _

theorem config_nodup : ((configEntries inst metricsPort).map keyOf).Nodup := by
  have hfronting : (frontingEntries inst).Sublist _ :=
    ((when_sublist _ _).append (when_sublist _ _)).append (when_sublist _ _)
  have htop := ((((List.Sublist.refl [entry "" "secret" (.str inst.secret.toList)]).append
    (List.Sublist.refl [entry "" "bind-to" (.str inst.bindTo.toList)])).append
    (when_sublist inst.debug [entry "" "debug" (.bool true)])).append
    (when_sublist inst.proxyProtocolListener [entry "" "proxy-protocol-listener" (.bool true)])).append
    (when_sublist (inst.preferIP ≠ "") [entry "" "prefer-ip" (.str inst.preferIP.toList)])
  have hsub : (configEntries inst metricsPort).Sublist _ :=
    ((htop.append ((when_sublist _ _).trans hfronting)).append (when_sublist _ _)).append (.refl _)
  refine (hsub.map keyOf).nodup ?_
  have hkeys : (allKeys.map fun k => (k.1.toList, k.2.toList)).Nodup := by
    refine List.Nodup.map ?_ (by decide)
    intro a b h
    obtain ⟨ht, hk⟩ := Prod.mk.inj h
    exact Prod.ext (String.toList_inj.mp ht) (String.toList_inj.mp hk)
  exact hkeys

theorem config_text : text (configEntries inst metricsPort) "" "secret" = inst.secret ∧
    text (configEntries inst metricsPort) "" "bind-to" = inst.bindTo ∧
    text (configEntries inst metricsPort) "" "prefer-ip" = inst.preferIP ∧
    text (configEntries inst metricsPort) "domain-fronting" "ip" = inst.frontingIP ∧
    text (configEntries inst metricsPort) "stats.prometheus" "bind-to" = "127.0.0.1:" ++ toString metricsPort := by
  have hlook (t k : String) : text (configEntries inst metricsPort) t k =
    match look (configEntries inst metricsPort) t k with
    | some (.str s) => String.ofList s
    | _ => "" := rfl
  simp only [hlook]
  refine ⟨?_, ?_, ?_, ?_, ?_⟩
  · simp [configEntries]
  · simp [configEntries]
  · by_cases h : inst.preferIP = ""
    · simp [configEntries, frontingEntries, h]
    · simp [configEntries, h]
  · by_cases h : inst.frontingIP = ""
    · simp [configEntries, frontingEntries, h]
    · simp [configEntries, frontingEntries, hasFronting, h]
  · simp [configEntries, frontingEntries, -String.toList_append]

theorem config_flags : flag (configEntries inst metricsPort) "" "debug" = inst.debug ∧
    flag (configEntries inst metricsPort) "" "proxy-protocol-listener" = inst.proxyProtocolListener ∧
    flag (configEntries inst metricsPort) "domain-fronting" "proxy-protocol" = inst.frontingProxyProtocol := by
  have hlook (t k : String) : flag (configEntries inst metricsPort) t k =
    match look (configEntries inst metricsPort) t k with
    | some (.bool b) => b
    | _ => false := rfl
  simp only [hlook]
  refine ⟨?_, ?_, ?_⟩
  · cases h : inst.debug <;> simp [configEntries, frontingEntries, h]
  · cases h : inst.proxyProtocolListener <;> simp [configEntries, frontingEntries, h]
  · cases h : inst.frontingProxyProtocol <;> simp [configEntries, frontingEntries, hasFronting, h]

theorem config_number : number (configEntries inst metricsPort) "domain-fronting" "port" = max inst.frontingPort 0 := by
  have hlook : number (configEntries inst metricsPort) "domain-fronting" "port" =
    match look (configEntries inst metricsPort) "domain-fronting" "port" with
    | some (.int n) => n
    | _ => 0 := rfl
  rw [hlook]
  by_cases h : 0 < inst.frontingPort
  · simp [configEntries, frontingEntries, hasFronting, h]
    omega
  · simp [configEntries, frontingEntries, h]
    omega

theorem config_texts : texts (configEntries inst metricsPort) "network" "proxies" =
    if inst.routeThroughXray && 0 < inst.xrayRoutePort then
      ["socks5://127.0.0.1:" ++ toString inst.xrayRoutePort] else [] := by
  have hlook : texts (configEntries inst metricsPort) "network" "proxies" =
    match look (configEntries inst metricsPort) "network" "proxies" with
    | some (.strs l) => l.map String.ofList
    | _ => [] := rfl
  rw [hlook]
  cases h : inst.routeThroughXray && 0 < inst.xrayRoutePort <;>
    simp [configEntries, frontingEntries, h, -String.toList_append, -Bool.and_eq_true]

end lookups

section results

variable {isPrint : Char → Bool} {inst : Instance} {metricsPort : Nat}

theorem read_config (hprint : ∀ c, GoQuote.control c = true → isPrint c = false) :
    Toml.read (renderConfig isPrint inst metricsPort).toList =
      if safeText inst then some (configEntries inst metricsPort) else none := by
  rw [Toml.read, renderConfig_lines, Toml.splitLines_flatMap (line_not_mem (hprint '\n' rfl)), config_lines hprint]
  cases safeText inst with
  | true => exact if_pos config_nodup
  | false => rfl

theorem port_bare (i : Int) : ':' ∉ (toString i).toList ∧ HostPort.bare (toString i).toList = true := by
  refine ⟨int_ne i (by decide), ?_⟩
  rw [HostPort.bare, Bool.and_eq_true, Bool.not_eq_true', Bool.not_eq_true', ← Bool.not_eq_true, ← Bool.not_eq_true,
    contains_iff_mem, contains_iff_mem]
  exact ⟨int_ne i (by decide), int_ne i (by decide)⟩

theorem bindTo_toList : inst.bindTo.toList = inst.address.toList ++ ':' :: (toString inst.port).toList := by
  rw [Instance.bindTo, String.toList_append, String.toList_append, append_assoc]
  rfl

theorem bindTo_plain : inst.bindTo.toList.all Toml.safe = inst.address.toList.all Toml.safe := by
  rw [bindTo_toList, all_append, all_cons, int_safe, show Toml.safe ':' = true from rfl]
  cases inst.address.toList.all Toml.safe <;> rfl

theorem recovers_iff : Recovers inst metricsPort (configEntries inst metricsPort) ↔
    HostPort.Form inst.address.toList ∧ 0 ≤ inst.frontingPort ∧
      (inst.routeThroughXray = true → 0 < inst.xrayRoutePort) := by
  obtain ⟨hsecret, hbind, hprefer, hip, hmetrics⟩ := @config_text inst metricsPort
  obtain ⟨hdebug, hlistener, hproxy⟩ := @config_flags inst metricsPort
  obtain ⟨hcolon, hbare⟩ := port_bare inst.port
  have hsplit := @HostPort.splitHostPort_iff _ inst.address.toList hcolon hbare
    (HostPort.unbracket inst.address.toList) (toString inst.port).toList
  rw [← bindTo_toList] at hsplit
  constructor
  · intro h
    have hform := h.bindTo
    rw [hbind, hsplit] at hform
    have hport := h.frontingPort
    rw [config_number] at hport
    refine ⟨hform.1, by omega, fun hroute => ?_⟩
    have hproxies := h.proxies
    rw [config_texts, Instance.proxies, hroute, Bool.true_and, if_pos rfl] at hproxies
    by_contra hzero
    rw [decide_eq_false hzero] at hproxies
    cases hproxies
  · rintro ⟨hform, hport, hroute⟩
    refine ⟨hsecret, ?_, hdebug, hlistener, hprefer, hip, ?_, hproxy, ?_, hmetrics⟩
    · rw [hbind, hsplit]
      exact ⟨hform, rfl, rfl⟩
    · rw [config_number]
      omega
    · rw [config_texts, Instance.proxies]
      cases h : inst.routeThroughXray with
      | true => rw [Bool.true_and, decide_eq_true (hroute h)]
      | false => rfl

theorem parsesBack_iff (hprint : ∀ c, GoQuote.control c = true → isPrint c = false) :
    ParsesBack isPrint inst metricsPort ↔ Renderable inst := by
  have hplain : safeText inst = true ↔
      Plain inst.secret ∧ Plain inst.address ∧ Plain inst.preferIP ∧ Plain inst.frontingIP := by
    rw [safeText, bindTo_plain, Bool.and_eq_true, Bool.and_eq_true, Bool.and_eq_true, and_assoc, and_assoc]
    rfl
  rw [ParsesBack, read_config hprint]
  constructor
  · rintro ⟨doc, hread, hrecovers⟩
    cases hsafe : safeText inst with
    | false =>
      rw [hsafe] at hread
      cases hread
    | true =>
      rw [hsafe] at hread
      obtain rfl := Option.some.inj hread
      obtain ⟨hsecret, haddress, hprefer, hip⟩ := hplain.mp hsafe
      obtain ⟨hform, hport, hroute⟩ := recovers_iff.mp hrecovers
      exact ⟨hsecret, ⟨haddress, hform⟩, hprefer, hip, hport, hroute⟩
  · intro h
    rw [hplain.mpr ⟨h.secret, h.listen.1, h.preferIP, h.frontingIP⟩]
    exact ⟨_, rfl, recovers_iff.mpr ⟨h.listen.2, h.frontingPort, h.route⟩⟩

structure AsConfigured (env : Env) (m : Manager) (desired : List Instance) : Prop where
  settled : Settled env m desired
  spared (inst : Instance) (cur : Managed) (p : Process) : m.slot inst.id = some (cur, p) → p.running = true →
    SameConfig p.inst inst → ∃ cur', (m.ensure env inst).1.slot inst.id = some (cur', p) ∧ cur'.proc = cur.proc
  parses : ∀ inst ∈ desired, ∀ metricsPort, ParsesBack env.isPrint inst metricsPort

theorem ensure_spares {env : Env} {m : Manager} (h : Inv env m) (hstarts : ∀ n, ∃ port, env.launch n = .started port)
    {cur : Managed} {p : Process} (hslot : m.slot inst.id = some (cur, p)) (hrunning : p.running = true)
    (hsame : SameConfig p.inst inst) :
    ∃ cur', (m.ensure env inst).1.slot inst.id = some (cur', p) ∧ cur'.proc = cur.proc := by
  rcases ensure_self h hstarts inst with ⟨cur', p', hslot', -, -, hafter⟩ | ⟨hstopped, -⟩
  · obtain ⟨rfl, rfl⟩ := Prod.mk.inj (Option.some.inj (hslot.symm.trans hslot'))
    exact ⟨_, hafter, rfl⟩
  · rw [hstopped cur p hslot hsame.fingerprint_eq] at hrunning
    cases hrunning

theorem configured_iff {env : Env} (hprint : ∀ c, GoQuote.control c = true → env.isPrint c = false)
    (hstarts : ∀ n, ∃ port, env.launch n = .started port) (acts : List Act) {desired : List Instance}
    (hnodup : (desired.map (·.id)).Nodup) :
    AsConfigured env (acts.foldl (Manager.act env) boot) desired ↔
      ∀ inst ∈ desired, Told env (acts.foldl (Manager.act env) boot) inst ∧ Renderable inst := by
  have hinv := @run_inv env acts
  constructor
  · intro h inst hmem
    exact ⟨(settled_iff hstarts hinv hnodup).mp h.settled inst hmem,
      (parsesBack_iff hprint).mp (h.parses inst hmem 0)⟩
  · intro h
    refine ⟨(settled_iff hstarts hinv hnodup).mpr fun inst hmem => (h inst hmem).1, ?_, ?_⟩
    · exact fun inst cur p hslot hrunning hsame => ensure_spares hinv hstarts hslot hrunning hsame
    · exact fun inst hmem _ => (parsesBack_iff hprint).mpr (h inst hmem).2

def asciiEnv : Env := ⟨fun c => 32 ≤ c.toNat && c.toNat < 127, fun n => .started (40000 + n)⟩

def sidecar (preferIP frontingIP : String) : Instance where
  id := 1
  tag := "inbound-443"
  listen := ""
  port := 443
  secret := "ee00"
  debug := false
  proxyProtocolListener := false
  preferIP := preferIP
  frontingIP := frontingIP
  frontingPort := 0
  frontingProxyProtocol := false
  routeThroughXray := false
  xrayRoutePort := 0

theorem asciiEnv_control : ∀ c, GoQuote.control c = true → asciiEnv.isPrint c = false := by
  intro c hc
  simp only [GoQuote.control, Bool.or_eq_true, decide_eq_true_eq] at hc
  simp only [asciiEnv, Bool.and_eq_false_iff, decide_eq_false_iff_not]
  omega

theorem first_slot (inst : Instance) : ([Act.ensure inst].foldl (Manager.act asciiEnv) boot).slot inst.id =
    some (launched inst 0 40000, spawned asciiEnv inst 40000) := by
  obtain ⟨port, hslot⟩ := @launch_self asciiEnv boot inst boot_inv fun n => ⟨_, rfl⟩
  rcases launch_cases asciiEnv boot inst with ⟨port', hlaunch, heq⟩ | ⟨hfails, -⟩
  · obtain rfl : 40000 = port' := Launch.started.inj hlaunch
    have hensure : boot.ensure asciiEnv inst = boot.launch asciiEnv inst := rfl
    simp only [foldl_cons, foldl_nil, Manager.act, hensure, heq]
    exact (placed_slot boot_inv).trans (if_pos rfl)
  · exact absurd rfl (hfails 40000)

theorem changed_ip_configured : AsConfigured asciiEnv
    ([Act.ensure (sidecar "" "")].foldl (Manager.act asciiEnv) boot) [sidecar "prefer-ipv4" ""] := by
  refine (configured_iff asciiEnv_control (fun n => ⟨_, rfl⟩) [.ensure (sidecar "" "")] (by decide)).mpr ?_
  intro inst hmem
  obtain rfl := mem_singleton.mp hmem
  constructor
  · intro cur p hslot _ hfp
    obtain ⟨-, rfl⟩ := Prod.mk.inj (Option.some.inj ((first_slot (sidecar "" "")).symm.trans hslot))
    exact absurd hfp (by decide +kernel)
  · exact ⟨by decide, ⟨by decide, .inl (by decide)⟩, by decide, by decide, by decide, nofun⟩

theorem separators_collide :
    ¬ Settled asciiEnv ([Act.ensure (sidecar "p|q" "r")].foldl (Manager.act asciiEnv) boot) [sidecar "p" "q|r"] ∧
      ¬ ParsesBack asciiEnv.isPrint { sidecar "" "" with listen := "::" } 40000 := by
  constructor
  · intro h
    have htold := (settled_iff (fun n => ⟨_, rfl⟩) (run_inv [.ensure (sidecar "p|q" "r")]) (by decide)).mp h _
      mem_cons_self
    exact absurd (htold _ _ (first_slot _) rfl rfl) (by decide +kernel)
  · intro h
    rcases ((parsesBack_iff asciiEnv_control).mp h).listen.2 with ⟨hcolon, -⟩ | ⟨inner, hinner, -⟩
    · exact hcolon (by decide)
    · cases hinner

end results

end Mtproto

end QuiPanel
