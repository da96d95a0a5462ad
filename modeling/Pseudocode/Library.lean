import Pseudocode.Disk

set_option autoImplicit false

namespace Pseudocode.Library

def folder : String := "/usr/lib/pseudocode/stdlib"

def place : Place := ["usr", "lib", "pseudocode", "stdlib"]

def file (parts : List String) : String :=
  "\n\n".intercalate parts

namespace Mathematics

def inclusions : String := r#"INCLUDE "_string_"
INCLUDE "_list_""#

def constants : String := r#"PI <- 3.141592653589793
e <- 2.71828"#

def sqrt : String := r#"DEF sqrt(a) DO
    RETURN a ^ 0.5
ENDEF"#

def factorial : String := r#"DEF factorial(a) DO
    b <- 1
    FOR i <- 1 TO a+1
        b <- b * i
    NEXT i + 1
    RETURN b
ENDEF"#

def sin : String := r#"DEF sin(a) DO
    op <- -1
    r <- a
    FOR i <- 3 TO 19
        r <- r + ((a^i)/factorial(i))*op
        op <- op * -1
    NEXT i +2
    RETURN r
ENDEF"#

def cos : String := r#"DEF cos(a) DO
    op <- -1
    r <- 1
    FOR i <- 2 TO 18
        r <- r + ((a^i)/factorial(i))*op
        op <- op * -1
    NEXT i +2
    RETURN r
ENDEF"#

def tan : String := r#"DEF tan(a) DO
    RETURN sin(a)/cos(a)
ENDEF"#

def deg : String := r#"DEF deg(a) DO
    RETURN a * 180 / PI
ENDEF"#

def rad : String := r#"DEF rad(a) DO
    RETURN a * PI/180
ENDEF"#

def abs : String := r#"DEF abs(x) DO
    IF x < 0 THEN
        RETURN x * -1
    ENDIF
    RETURN x
ENDEF"#

def floor : String := r#"DEF floor(x) DO
    str <- x + ""
    l <- split(str,".")
    RETURN toNum(l^0)
ENDEF"#

def ceil : String := r#"DEF ceil(x) DO
    str <- x + ""
    l <- split(str,".")
    IF str = l^0 THEN
        RETURN x
    ELSE
        RETURN floor(x) + 1
    ENDIF
ENDEF"#

def mod : String := r#"REM a mod b
DEF mod(a,b) DO
    RETURN a-b*floor(a/b)
ENDEF"#

def hcf : String := r#"DEF hcf(a,b) DO
    l <- []
    FOR i <- 1 TO min([a,b])+1
        IF mod(a,i) = 0 AND mod(b,i) = 0 THEN
            l <- l + i
        ENDIF
    NEXT i+1
    RETURN max(l)
ENDEF"#

def lHcf : String := r#"DEF lHcf(l) DO
    result <- l^0
    FOR i <- 0 TO sizeof(l)
        result <- hcf(l^i,result)
        IF result = 1 THEN
            RETURN 1
        ENDIF
    NEXT i+1
    RETURN result
ENDEF"#

def gcd : String := r#"DEF gcd(a,b) DO
    RETURN hcf(a,b)
ENDEF"#

def lGcd : String := r#"DEF lGcd(l) DO
    RETURN lHcf(l)
ENDEF"#

def lLcm : String := r#"DEF lLcm(l) DO
    ans <- l^0
    FOR i <- 1 TO sizeof(l)
        ans <- (l^i*ans)/(gcd(l^i,ans))
    NEXT i + 1
    RETURN ans
ENDEF"#

def lcm : String := r#"DEF lcm(a,b) DO
    RETURN (a*b)/gcd(a,b)
ENDEF"#

def permutations : String := r#"DEF permutations(n,k) DO
    RETURN factorial(n)/factorial(n-k)
ENDEF"#

def combinations : String := r#"DEF combinations(n,k) DO
    RETURN permutations(n,k)/factorial(k)
ENDEF"#

def parts : List String :=
  [inclusions, constants, sqrt, factorial, sin, cos, tan, deg, rad, abs, floor, ceil, mod, hcf,
   lHcf, gcd, lGcd, lLcm, lcm, permutations, combinations]

end Mathematics

def mathematics : String := file Mathematics.parts

namespace Strings

def toList : String := r#"DEF toList(str) DO
    l <- []
    FOR i <- 0 TO sizeof(str)
        l <- l + str^i
    NEXT i + 1
    RETURN l
ENDEF"#

def split : String := r#"DEF split(str,sep) DO
    REM sep must be a char!
    IF sizeof(sep) > 1 THEN
        RETURN 0
    ENDIF
    l <- []
    tmp <- ""
    FOR i <- 0 TO sizeof(str)
        c <- str^i
        IF c = sep THEN
            l <- l + tmp
            tmp <- ""
        ELSE
            tmp <- tmp + c
        ENDIF
    NEXT i + 1
    l <- l + tmp
    RETURN l
ENDEF"#

def parts : List String :=
  [toList, split]

end Strings

def strings : String := file Strings.parts

namespace Lists

def sum : String := r#"DEF sum(l) DO
    s <- 0
    FOR i <- 0 TO sizeof(l)
        s <- s + l^i
    NEXT i + 1
    RETURN s
ENDEF"#

def product : String := r#"DEF product(l) DO
    s <- 0
    FOR i <- 0 TO sizeof(l)
        s <- s * l^i
    NEXT i + 1
    RETURN s
ENDEF"#

def max : String := r#"DEF max(l) DO
    mx <- l^0
    FOR i <- 0 TO sizeof(l)
        c <- l^i
        IF c > mx THEN
            mx <- c
        ENDIF
    NEXT i + 1
    RETURN mx
ENDEF"#

def min : String := r#"DEF min(l) DO
    mn <- l^0
    FOR i <- 0 TO sizeof(l)
        c <- l^i
        IF c < mn THEN
            mn <- c
        ENDIF
    NEXT i + 1
    RETURN mn
ENDEF"#

def insert : String := r#"DEF insert(l,i,d) DO
    r <- []
    FOR j <- 0 TO sizeof(l)
        IF j = i THEN
            r <- r + d
        ELSE
            r <- r + l^j
        ENDIF
    NEXT i + 1
    RETURN r
ENDEF"#

def toString : String := r#"DEF toString(l) DO
    s <- ""
    FOR i <- 0 TO sizeof(l)
        s <- s + l^i
    NEXT i + 1
    RETURN s
ENDEF"#

def parts : List String :=
  [sum, product, max, min, insert, toString]

end Lists

def lists : String := file Lists.parts

namespace FileAccess

def inclusions : String := r#"INCLUDE "_string_""#

def shellCommands : String := r#"DEF readFile(f) DO
    RETURN shell("cat " + f)
ENDEF
DEF writeFile(f,data) DO
    RETURN shell("echo '"+data+"' >| " +f)
ENDEF
DEF appendFile(f,data) DO
    RETURN shell("echo '"+data+"' >> "+f)
ENDEF
DEF removeFile(f) DO
    RETURN shell("rm " + f)
ENDEF"#

def listDir : String := r#"DEF listDir(d) DO
    str <- shell("ls " + d)
    RETURN split(str,"\n")
ENDEF"#

def parts : List String :=
  [inclusions, shellCommands, listDir]

end FileAccess

def fileAccess : String := file FileAccess.parts

def files : List (Place × String) :=
  [(place ++ ["_math_"], mathematics), (place ++ ["_string_"], strings),
   (place ++ ["_list_"], lists), (place ++ ["_fio_"], fileAccess)]

def disk (home : Place) : Disk :=
  Disk.fresh home files

end Pseudocode.Library
