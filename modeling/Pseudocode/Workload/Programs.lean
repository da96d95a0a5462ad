set_option autoImplicit false

namespace Pseudocode.Workload

def allTokens : String := "DECLARE x : INTEGER
DECLARE grid : ARRAY[1:3, 1:3] OF REAL
x <- 1; y = 2.5; z ← .5
name <- 'text \\'quoted\\''
IF x == 1 AND y != 2 OR NOT z <> 3 THEN // a remark
PRINT x + y - z * 2 / 4 ^ 2
ENDIF
REM another remark
WHILE x <= 10 DO ENDWHILE
grid[1, 2] <- (x >= y) MOD 7
r <- x < y; q <- x > y; d
"

def arithmetic (size : Nat) : String :=
  "total <- 0
FOR i <- 1 TO " ++ toString size ++ "
    a <- +i + -1
    b <- i * 2 - 3
    c <- i ^ 2 / 2
    d <- i MOD 5
    e <- i DIV 3
    total <- total + a + b + c + d + e
NEXT i
PRINT total
"

def controlFlow (size : Nat) : String :=
  "DECLARE s : STRING
DECLARE r : REAL
DECLARE b : BOOLEAN
DECLARE arr : ARRAY[1:3, 1:3] OF INTEGER
s <- \"x\"
t <- TRUE
f <- FALSE
acc <- 0
i <- 0
WHILE i < " ++ toString size ++ " DO
    IF i MOD 2 = 0 THEN
        acc <- acc + i
    ELSE
        acc <- acc - 1
    ENDIF
    IF NOT (i >= 3 AND t) THEN
        s <- s + \"y\"
    ENDIF
    IF i <= 1 OR f THEN
        acc <- acc + 0
    ENDIF
    i <- i + 1
ENDWHILE
j <- 0
REPEAT
    j <- j + 1
    acc <- acc + j
UNTIL j >= 5
FOR k <- 5 TO 1 STEP -1
    acc <- acc + k
NEXT k
PRINT
PRINT acc, s
"

def functions (size : Nat) : String :=
  "DEF addp(a, b) DO
    RETURN a + b
ENDEF
FUNCTION square(x) RETURNS INTEGER
    RETURN x * x
ENDFUNCTION
PROCEDURE shout(m)
    PRINT m
ENDPROCEDURE
DEF fib(n) DO
    IF n <= 1 THEN
        RETURN n
    ELSE
        RETURN fib(n - 1) + fib(n - 2)
    ENDIF
ENDEF
DEF noop() DO
    x <- 1
ENDEF
total <- 0
FOR i <- 1 TO " ++ toString size ++ "
    total <- addp(total, square(i))
NEXT i
shout(total)
noop()
PRINT fib(6)
"

def stringsAndLists : String := "xs <- [1, 2, 3]
ys <- [4, 5]
zs <- xs + ys
rep <- zs * 2
empty <- []
s1 <- \"ab\"
s2 <- \"cd\"
s3 <- s1 + s2
s4 <- s1 * 3
s5 <- 2 * s2
mix <- s1 + 7
cmpA <- s1 < s2
cmpB <- s1 > s2
cmpC <- s1 <= s2
cmpD <- s1 >= s2
cmpE <- s1 == s2
cmpF <- s1 != s2
cmpG <- s1 == 3
cmpH <- s1 != 3
la <- 0 AND 1
lb <- 1 AND 1
lc <- 1 OR 0
ld <- 0 OR 1
le <- 0 OR 0
PRINT zs, rep, s3, s4, mix
"

def arrays (size : Nat) : String :=
  let n := toString size
  "DECLARE grid : ARRAY[1:" ++ n ++ ", 1:" ++ n ++ "] OF INTEGER
DECLARE row : ARRAY[1:" ++ n ++ "] OF INTEGER
FOR i <- 1 TO " ++ n ++ "
    row[i] <- i * 2
    FOR j <- 1 TO " ++ n ++ "
        grid[i, j] <- i * 10 + j
    NEXT j
NEXT i
s <- 0
FOR i <- 1 TO " ++ n ++ "
    s <- s + row[i]
    FOR j <- 1 TO " ++ n ++ "
        s <- s + grid[i, j]
    NEXT j
NEXT i
PRINT s
"

def cases (size : Nat) : String :=
  "hit <- 0
FOR v <- 1 TO " ++ toString size ++ "
    CASE OF v
        1: hit <- hit + 1
        2 TO 4: hit <- hit + 2
        OTHERWISE: hit <- hit + 100
    ENDCASE
NEXT v
w <- 99
CASE OF w
    1: hit <- hit + 0
ENDCASE
PRINT hit
"

def remaining : String := "INCLUDE \"dummy\"
DECLARE q : INTEGER
read \"file\"
"

def everything : String :=
  arithmetic 5 ++ controlFlow 5 ++ functions 5 ++ stringsAndLists ++ arrays 3 ++ cases 5 ++ remaining

def unparsable : List String :=
  ["DECLARE : INTEGER", "DECLARE x INTEGER", "DECLARE x : foo",
   "DECLARE x : ARRAY 1:2] OF INTEGER", "DECLARE x : ARRAY[1 2] OF INTEGER",
   "DECLARE x : ARRAY[1:2 OF INTEGER", "DECLARE x : ARRAY[1:2] INTEGER",
   "DECLARE x : ARRAY[1:2] OF 7", "DECLARE x : ARRAY[1:2, 1 2] OF INTEGER", "ENDEF",
   "IF 1 PRINT 1 ENDIF", "IF 1 THEN PRINT 1", "IF 1 THEN PRINT 1 ELSE PRINT 2",
   "FOR 1 TO 2 PRINT 1 NEXT i", "FOR i 1 TO 2 PRINT 1 NEXT i", "FOR i <- 1 2 PRINT 1 NEXT i",
   "FOR i <- 1 TO 2 PRINT 1", "FOR i <- 1 TO 2 PRINT 1 NEXT j", "WHILE 1 PRINT 1 ENDWHILE",
   "WHILE 1 DO PRINT 1", "DEF 1() DO ENDEF", "DEF f 1 DO ENDEF", "DEF f(a, 1) DO ENDEF",
   "DEF f(a DO ENDEF", "DEF f() PRINT 1 ENDEF", "DEF f() DO PRINT 1", "DEF f() DO RETURN 1",
   "INPUT 1", "INCLUDE 1", "(1 + 2", "[1, 2", "f(1, 2", "+ + )", "CASE 1", "CASE OF 1",
   "CASE OF x OTHERWISE PRINT 1 ENDCASE", "CASE OF x 1 PRINT 1 ENDCASE", "x <- a[1", "a[1 <- 2",
   "REPEAT x <- 1"]

def faulty : List String :=
  ["missing", "missing()", "x <- 1; x()", "missing[1]", "x <- 1; x[1]", "missing[1] <- 2",
   "x <- 1; x[1] <- 2", "\"a\" - 1", "\"a\" / 1", "\"a\" ^ 2", "\"a\" MOD 2", "\"a\" DIV 2",
   "[1] * [2]", "1 / 0", "1 MOD 0", "1 DIV 0", "+\"a\"", "-\"a\"", "NOT \"a\"", "1 < \"a\"",
   "1 > \"a\"", "1 <= \"a\"", "1 >= \"a\"", "1 AND \"a\"", "0 OR \"a\"",
   "IF \"a\" THEN PRINT 1 ENDIF", "IF \"a\" THEN PRINT 1 ELSE PRINT 2 ENDIF",
   "WHILE \"a\" DO PRINT 1 ENDWHILE", "REPEAT x <- 1 UNTIL \"a\"",
   "FOR i <- \"a\" TO 2 PRINT i NEXT i", "DEF f(a) DO RETURN a ENDEF; f()",
   "DEF f() DO RETURN f() ENDEF; f()", "a <- [1]; a[\"x\"]", "a <- [1]; a[2]",
   "a <- [1]; a[1, 1]", "a <- [[1]]; a[2, 1]", "a <- [[1]]; a[1, 2]", "a <- [1]; a[1, 1, 1]",
   "CASE OF missing 1: PRINT 1 ENDCASE", "INCLUDE \"nowhere\""]

def sums (size : Nat) : String :=
  "total <- 0\n" ++
    String.join ((List.range size).map fun i =>
      "total <- total + " ++ toString i ++ " * 2 - 1\n") ++ "PRINT total\n"

def assignments (size : Nat) : String :=
  String.join ((List.range size).map fun i =>
    "x" ++ toString i ++ " <- " ++ toString i ++ " + 1\n")

end Pseudocode.Workload
