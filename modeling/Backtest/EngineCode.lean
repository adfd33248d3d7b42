namespace Backtest

inductive EngineCode where
  | success | invalidCurrency | unknownSymbol | symbolTooShort | parseSymbolFailed
  | noConversionSymbols | nullPointer | invalidStrategyId | notEnoughMargin | spreadTooWide
  | notEnoughRatesData | worstCaseScenario | normalizeBarsFailed | initLoggingFailed
  | deinitLoggingFailed | contextCreationFailed | unknownTimezone | invalidTimeOffset
  | invalidParameter | nnTrainingFailed | unableToLoadFile | tooManyInstances | invalidConfig
  | missingConfig | initXmlFailed | unknownInstanceId | insufficientMemory | waitForInit
  | errorInRatesRetrieval | bidAskIsZero | fileWritingError
deriving Repr, DecidableEq

namespace EngineCode

def table : List (EngineCode × Int × String) :=
  [(.success, 0, "Success"),
   (.invalidCurrency, 3000, "InvalidCurrency"),
   (.unknownSymbol, 3001, "UnknownSymbol"),
   (.symbolTooShort, 3002, "SymbolTooShort"),
   (.parseSymbolFailed, 3003, "ParseSymbolFailed"),
   (.noConversionSymbols, 3004, "NoConversionSymbols"),
   (.nullPointer, 3005, "NullPointer"),
   (.invalidStrategyId, 3006, "InvalidStrategyId"),
   (.notEnoughMargin, 3007, "NotEnoughMargin"),
   (.spreadTooWide, 3008, "SpreadTooWide"),
   (.notEnoughRatesData, 3009, "NotEnoughRatesData"),
   (.worstCaseScenario, 3010, "WorstCaseScenario"),
   (.normalizeBarsFailed, 3011, "NormalizeBarsFailed"),
   (.initLoggingFailed, 3012, "InitLoggingFailed"),
   (.deinitLoggingFailed, 3013, "DeinitLoggingFailed"),
   (.contextCreationFailed, 3014, "ContextCreationFailed"),
   (.unknownTimezone, 3015, "UnknownTimezone"),
   (.invalidTimeOffset, 3016, "InvalidTimeOffset"),
   (.invalidParameter, 3017, "InvalidParameter"),
   (.nnTrainingFailed, 3018, "NnTrainingFailed"),
   (.unableToLoadFile, 3019, "UnableToLoadFile"),
   (.tooManyInstances, 3022, "TooManyInstances"),
   (.invalidConfig, 3023, "InvalidConfig"),
   (.missingConfig, 3024, "MissingConfig"),
   (.initXmlFailed, 3025, "InitXmlFailed"),
   (.unknownInstanceId, 3026, "UnknownInstanceId"),
   (.insufficientMemory, 3027, "InsufficientMemory"),
   (.waitForInit, 3028, "WaitForInit"),
   (.errorInRatesRetrieval, 3029, "ErrorInRatesRetrieval"),
   (.bidAskIsZero, 3030, "BidAskIsZero"),
   (.fileWritingError, 3031, "FileWritingError")]

def ofInt? (code : Int) : Option EngineCode :=
  (table.find? fun row => row.2.1 == code).map (·.1)

def toInt (c : EngineCode) : Int := (table.lookup c).elim 0 (·.1)

def name (c : EngineCode) : String := (table.lookup c).elim "" (·.2)

def describe (code : Int) : String :=
  match ofInt? code with
  | some c => c.name ++ " (" ++ toString code ++ ")"
  | none => "unrecognised return code " ++ toString code

example : ofInt? 3028 = some .waitForInit := by decide
example : toInt .waitForInit = 3028 := by decide

end EngineCode
end Backtest
