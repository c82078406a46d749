/-!
# Errors

Everything that can go wrong while a command runs, by its cause.  Each cause has
a four-digit code, whose first digit is the area: 3 expressions, 4 the window,
5 settings, 6 commands, 9 the running program.
-/

namespace DerivCalc

/-- The cause of an error. -/
inductive Error where
  /-- A character or word of a formula starts no token. -/
  | invalidToken (fragment : String)
  /-- A bracket is closed that was not opened. -/
  | unopenedBracket
  /-- A bracket is not closed. -/
  | unclosedBracket
  /-- A binary operator has fewer than two operands. -/
  | missingOperand
  /-- A function has no argument. -/
  | missingArgument
  /-- Operands are left over that no operator joins, or a bracket stands where an operand should. -/
  | danglingOperands
  /-- There is no expression at all. -/
  | emptyExpression
  /-- An expression has more levels than the engine walks. -/
  | tooDeep
  /-- A command is launched while another one runs. -/
  | commandRunning
  /-- The precision setting is no positive integer. -/
  | invalidPrecision (setting : String)
  /-- The line is blank or its first word is no command. -/
  | invalidCommand
  /-- The command needs an expression and none was entered. -/
  | noExpression
  /-- A name is missing. -/
  | emptyName
  /-- A name is more than one word. -/
  | nameWithSpaces
  /-- A new name starts with something else than a letter. -/
  | nameWithoutLetter
  /-- No expression was saved under this name. -/
  | unknownName (name : String)
  /-- The words of a query are no name and number. -/
  | invalidQuery
  /-- A name in a query starts with a digit. -/
  | nameWithDigit
  /-- No operator is written with this sign. -/
  | unknownOperator (symbol : String)
  /-- The precision setting is larger than numbers can be formatted with. -/
  | precisionTooBig
  /-- The precision setting does not fit a machine word. -/
  | precisionTooWide
deriving DecidableEq, Repr

namespace Error

/-- The four digits of the error. -/
def code : Error → String
  | invalidToken _ => "3000"
  | unopenedBracket => "3001"
  | unclosedBracket => "3002"
  | missingOperand => "3003"
  | missingArgument => "3004"
  | danglingOperands => "3005"
  | emptyExpression => "3006"
  | tooDeep => "3007"
  | commandRunning => "4002"
  | invalidPrecision _ => "5001"
  | invalidCommand => "6000"
  | noExpression => "6001"
  | emptyName => "6002"
  | nameWithSpaces => "6003"
  | nameWithoutLetter => "6004"
  | unknownName _ => "6005"
  | invalidQuery => "6006"
  | nameWithDigit => "6007"
  | unknownOperator _ => "9999"
  | precisionTooBig => "9999"
  | precisionTooWide => "9999"

/-- The text shown to the user. -/
def message : Error → String
  | invalidToken fragment => "Invalid token: " ++ fragment
  | unopenedBracket => "Invalid expression"
  | unclosedBracket => "Invalid expression"
  | missingOperand => "Invalid expression"
  | missingArgument => "Invalid expression"
  | danglingOperands => "Invalid expression"
  | emptyExpression => "Invalid expression"
  | tooDeep => "Expression too deep"
  | commandRunning => "Command already Running!"
  | invalidPrecision setting => "Invalid precision setting: " ++ setting
  | invalidCommand => "Invalid command"
  | noExpression => "Enter expression"
  | emptyName => "Variable name must not be empty"
  | nameWithSpaces => "Variable name must not contain spaces"
  | nameWithoutLetter => "Variable name must start with a letter"
  | unknownName name => "No variable with name: " ++ name
  | invalidQuery => "Invalid query"
  | nameWithDigit => "Variable name must not start with a digit"
  | unknownOperator symbol => "Unknown operator: BinaryOperator('" ++ symbol ++ "')"
  | precisionTooBig => "Unexpected crash: precision too big"
  | precisionTooWide => "Unexpected crash: Too many decimal digits in format string"

/-- A fault of the program's limits and not of the command; a run of commands ends with it. -/
def isCrash : Error → Bool
  | precisionTooBig => true
  | precisionTooWide => true
  | _ => false

end Error

/-- An error together with the text it was found in, if that is known. -/
structure Failure where
  cause : Error
  source : Option String
deriving DecidableEq, Repr

/-- An error without a text. -/
def Failure.ofError (cause : Error) : Failure := ⟨cause, none⟩

end DerivCalc
